import GoLayout.Format
import GoLayout.Proofs.Grammar.File
import GoLayout.Proofs.Tree.Traverse

/-!
What comes before the tidying keeps a file over its bytes. A replacement goes, with all its tokens,
to where the expression began that it stands for; dropped range variables only take tokens away. The
sides of a rule are read again for each file, which never fails.
-/

namespace GoLayout

namespace Rule

theorem text_of_readSide {side : RuleSide} {text : String} {p : Phrased}
    (h : readSide side text = .ok p) : p.text = text := by
  unfold readSide at h
  split at h
  · cases h
    rfl
  · cases h

/-- A side that was read once is read again as it was. -/
theorem readSide_text (side : RuleSide) (p : Phrased) : readSide side p.text = .ok p := by
  obtain ⟨text, expr, reads⟩ := p
  unfold readSide
  split
  · rename_i expr' reads'
    obtain rfl : expr' = expr := Except.ok.inj (reads'.symm.trans reads)
    rfl
  · rename_i failure fails
    exact absurd (fails.symm.trans reads) (by simp)

/-- Applying a rule never fails. -/
theorem rewrite_eq (r : Rule) (f : SourceFile) : r.rewrite f = .ok (r.applyAll f) := by
  rw [rewrite, readSide_text, readSide_text]
  rfl

end Rule

variable {P : Span → Prop} {n : Nat}

theorem Pattern.everywhere_subst {pattern : Expr} {bindings : Bindings} {pos : Nat}
    (h : P (.point pos)) : (subst pattern bindings (some pos)).Everywhere P := by
  refine Expr.everywhere_copy (fun _ => h) ?_ pattern
  intro name e filled
  dsimp only at filled
  split at filled
  · obtain ⟨bound, -, rfl⟩ := Option.map_eq_some_iff.mp filled
    exact Expr.everywhere_copy (fun _ => h) (fun _ _ filled => by simp at filled) bound
  · nomatch filled

theorem Rule.replace?_everywhere {r : Rule} {e e' : Expr} (pos : 0 < n)
    (h : e.Everywhere (Span.Within n)) (replaced : r.replace? e = some e') :
    e'.Everywhere (Span.Within n) := by
  obtain ⟨bindings, -, rfl⟩ := Option.map_eq_some_iff.mp replaced
  exact Pattern.everywhere_subst (Span.within_point (e.pos_lt pos h))

theorem Rule.visitor_sound (r : Rule) (pos : 0 < n) :
    r.visitor.Sound .counting (Span.Within n) False := by
  refine { Visitor.sound_idle with expr := ?_ }
  intro e _
  refine Judgement.counting.pure fun x kept => ?_
  split
  · rename_i e' replaced
    refine Judgement.counting.bind (Q := fun _ => True) (fun _ => trivial) fun _ _ => ?_
    exact Judgement.counting.pure ⟨r.replace?_everywhere pos kept.1 replaced, False.elim⟩
  · exact Judgement.counting.pure ⟨kept.1, False.elim⟩

theorem Stmt.everywhere_dropBlanks {bare : Bool} {s : Stmt} (h : s.Everywhere P) :
    (s.dropBlanks bare).Everywhere P := by
  cases s with
  | range forPos key value op rangePos operand body =>
    obtain ⟨ofFor, ofKey, ofValue, ofOp, ofRange, ofOperand, ofBody⟩ := h
    simp only [dropBlanks]
    split
    · exact ⟨ofFor, trivial, trivial, nofun, ofRange, ofOperand, ofBody⟩
    · refine ⟨ofFor, ofKey, Expr.everywhereOpt_iff.mpr ?_, ofOp, ofRange, ofOperand, ofBody⟩
      intro e mem
      exact Expr.everywhereOpt_iff.mp ofValue e (Option.mem_filter_iff.mp mem).1
  | _ => exact h

theorem Visitor.blankDropper_sound (bare : Bool) :
    (Visitor.blankDropper bare).Sound .plain P False := by
  refine { Visitor.sound_idle with stmt := ?_ }
  intro s _ x kept
  exact ⟨Stmt.everywhere_dropBlanks kept.1, nofun⟩

namespace SourceFile

variable {f : SourceFile}

theorem Over.applyAll (h : f.Over n) (r : Rule) : (r.applyAll f).1.Over n := by
  have pos : 0 < n := Nat.zero_lt_of_lt h.name.1
  have visited := Decl.visitAll_everywhere (r.visitor_sound pos) f.decls h.decls 0
  exact { h with decls := visited }

theorem Over.simplify (h : f.Over n) (opts : Options) : (f.simplify opts).Over n := by
  have visited := Decl.visitAll_everywhere
    (Visitor.blankDropper_sound (P := Span.Within n) opts.allowsBareRange) f.decls h.decls
  exact { h with decls := visited }

theorem Over.applyRule {f' : SourceFile} {opts : Options} (h : f.Over n)
    (applied : f.applyRule opts = .ok f') : f'.Over n := by
  unfold SourceFile.applyRule at applied
  split at applied
  · obtain ⟨r, -, rewritten⟩ := exists_of_bind_eq_ok applied
    rw [r.rewrite_eq] at rewritten
    cases rewritten
    exact h.applyAll r
  · cases applied
    exact h

end SourceFile

end GoLayout
