import GoLayout.Proofs.LineTable
import GoLayout.Proofs.Tree.Traverse
import GoLayout.Tidy.Nodes

/-!
What tidying does at the nodes of a tree. Every edit of the line table that a node asks for
succeeds, since it joins lines of offsets or breaks a line within the text; the node keeps its
tokens within the text, and where no parameters are merged and no numbers respelled, its words.
-/

namespace GoLayout

variable {n : Nat}

/-! ### Edits that nodes ask for -/

theorem LineTable.removeBetween_safe (a b : Nat) : (removeBetween a b).Safe n fun _ => True :=
  .of_yields fun _ cover => removeBetween_yields cover a b

theorem LineTable.insertBreak_safe {offset : Nat} (within : offset ≤ n) :
    (insertBreak offset).Safe n fun _ => True :=
  .of_yields fun _ cover => insertBreak_yields cover within

theorem Expr.breakComposites_safe {es : List Expr} (h : Expr.EverywhereAll (Span.Within n) es) :
    (Expr.breakComposites es).Safe n fun _ => True := by
  fun_induction Expr.breakComposites es with
  | case1 a b rest ih =>
    refine .look_bind fun t => ?_
    dsimp only
    split
    · exact .bind (LineTable.insertBreak_safe (a.stop_le h.1)) fun _ _ => ih h.2
    · exact ih h.2
  | case2 => exact .pure trivial

theorem Expr.spread_safe {lbrace rbrace : Span} {elements : List Expr} (left : lbrace.Within n)
    (h : Expr.EverywhereAll (Span.Within n) elements) :
    (Expr.spread lbrace rbrace elements).Safe n fun _ => True := by
  unfold Expr.spread
  split
  · rename_i first last _ isLast
    have last_le : last.stop ≤ n :=
      last.stop_le (Expr.everywhereAll_iff.mp h last (List.mem_of_getLast? isLast))
    have composites : Relining.Safe n
        (do
          Expr.breakComposites elements
          let lines ← get
          if lines.line rbrace.start == lines.line last.stop then LineTable.insertBreak last.stop)
        fun _ => True := by
      refine .bind (Expr.breakComposites_safe h) fun _ _ => .look_bind fun t => ?_
      split
      · exact LineTable.insertBreak_safe last_le
      · exact .pure trivial
    refine .look_bind fun t => ?_
    dsimp only
    split
    · split
      · exact .bind (LineTable.insertBreak_safe left.1) fun _ _ => composites
      · exact composites
    · exact .pure trivial
  · exact .pure trivial

theorem Stmt.joinErrChecks_safe (ss : List Stmt) :
    (Stmt.joinErrChecks ss).Safe n fun _ => True := by
  fun_induction Stmt.joinErrChecks ss with
  | case1 a b rest _ _ ih =>
    exact .bind (LineTable.removeBetween_safe a.stop b.pos) fun _ _ => ih
  | case2 a b rest _ _ ih => exact ih
  | case3 => exact .pure trivial

theorem Stmt.joinHeader_safe (comments : List CommentGroup) (depth : Nat) (s : Stmt) :
    (s.joinHeader comments depth).Safe n fun _ => True := by
  unfold Stmt.joinHeader
  split
  · refine .get_bind fun t cover => ?_
    dsimp only
    split
    · refine (LineTable.removeLines_line_yields cover _ _).mono fun _ t' cover' => ?_
      exact ⟨trivial, cover'⟩
    · exact .pure ⟨trivial, cover⟩
  · exact .pure trivial

theorem Block.trim_safe (comments : List CommentGroup) (always : Bool) (b : Block) :
    (b.trim comments always).Safe n fun _ => True := by
  unfold Block.trim
  split
  · exact LineTable.removeBetween_safe _ _
  · split
    · exact .bind (LineTable.removeBetween_safe _ _) fun _ _ => LineTable.removeBetween_safe _ _
    · exact .pure trivial

/-- Parentheses are dropped around a single spec only. They leave the spec alone, and the keyword
within the text. -/
theorem GenDecl.flatten_safe (comments : List CommentGroup) (d : GenDecl) (pos : 0 < n)
    (kw : d.kwPos.Within n) (specs : Spec.EverywhereAll (Span.Within n) d.specs) :
    (d.flatten comments).Safe n fun d' => d' = d ∨ d.specs.length = 1 ∧
      ∃ kwPos, kwPos.Within n ∧ d' = { d with kwPos, lparen := none, rparen := none } := by
  unfold GenDecl.flatten
  split
  · split
    · exact .pure (.inl rfl)
    · rename_i lparen rparen spec _ _ only _
      rw [only] at specs
      have single : d.specs.length = 1 := congrArg List.length only
      refine .get_bind fun t cover => ?_
      extract_lets kwLine finish
      have finish_safe : ∀ kwPos : Span, kwPos.Within n → (finish kwPos).Safe n fun d' => d' = d ∨
          d.specs.length = 1 ∧
          ∃ kwPos, kwPos.Within n ∧ d' = { d with kwPos, lparen := none, rparen := none } := by
        refine fun kwPos within => .get_bind fun t cover => ?_
        refine .bind (LineTable.removeLines_line_yields cover _ _) fun _ t' cover' => ?_
        exact .pure ⟨.inr ⟨single, kwPos, within, rfl⟩, cover'⟩
      split
      · refine .bind (LineTable.removeLines_line_yields cover _ _) fun _ t' cover' => ?_
        exact finish_safe d.kwPos kw t' cover'
      · refine .bind (LineTable.removeLines_line_yields cover _ _) fun _ t' cover' => ?_
        exact finish_safe _ (Span.within_point (spec.pos_lt pos specs.1)) t' cover'
  · exact .pure (.inl rfl)

/-! ### Changes of nodes -/

section Merging

variable {P : Span → Prop}

theorem Field.everywhere_mergeMarked {last : Field} {rest : List Field} {marks : List Bool}
    (ofLast : last.Everywhere P) (ofRest : Field.EverywhereAll P rest) :
    Field.EverywhereAll P (Field.mergeMarked last rest marks) := by
  fun_induction Field.mergeMarked last rest marks with
  | case1 last f rest marks ih =>
    obtain ⟨_, names, type, tag, _⟩ := last
    obtain ⟨_, names', _, _, _⟩ := f
    refine ih ⟨?_, ofLast.2⟩ ofRest.2
    intro name mem
    rcases List.mem_append.mp mem with mem | mem
    · exact ofLast.1 name mem
    · exact ofRest.1.1 name mem
  | case2 last f rest marks ih => exact ⟨ofLast, ih ofRest.1 ofRest.2⟩
  | case3 => exact ⟨ofLast, ofRest⟩

theorem FieldList.everywhere_mergeMarked {l : FieldList} (marks : List Bool) (h : l.Everywhere P) :
    (l.mergeMarked marks).Everywhere P := by
  obtain ⟨brackets, fields⟩ := l
  cases fields with
  | nil => exact h
  | cons f rest => exact ⟨h.1, Field.everywhere_mergeMarked h.2.1 h.2.2⟩

theorem FieldList.mergeMarked_nil (l : FieldList) : l.mergeMarked [] = l := by
  obtain ⟨brackets, fields⟩ := l
  cases fields with
  | nil => rfl
  | cons f rest => simp [mergeMarked, Field.mergeMarked]

end Merging

namespace Tidy

/-- Options under which tidying changes no words. -/
def Faithful (opts : Options) : Prop := opts.extra = false ∧ opts.langAtLeast 1 13 = false

theorem modernized_eq {opts : Options} (faithful : Faithful opts) (l : Literal) :
    l.modernized opts = l := by
  simp [Literal.modernized, faithful.2]

theorem modernized_span (opts : Options) (l : Literal) : (l.modernized opts).span = l.span := by
  unfold Literal.modernized
  split
  · split <;> rfl
  · rfl

theorem everywhere_assignment {P : Span → Prop} {s : Stmt} (h : s.Everywhere P) :
    (assignment s).Everywhere P := by
  unfold assignment
  split
  · rename_i names assign v vs _
    obtain ⟨-, -, ⟨⟨ofNames, -, ofAssign, ofValues⟩, -⟩, -⟩ := h
    refine ⟨Expr.everywhereAll_iff.mpr fun e mem => ?_, ofAssign _ rfl, ofValues⟩
    obtain ⟨name, found, rfl⟩ := List.mem_map.mp mem
    exact ofNames name found
  · exact h

theorem words_assignment (s : Stmt) : (assignment s).words = s.words := by
  unfold assignment
  split
  · simp [Stmt.words, GenDecl.words, Spec.wordsAll, Spec.words, TypeExpr.wordsOpt,
      Expr.wordsAll_idents]
  · rfl

/-! ### The visitor -/

/-- A step of tidying succeeds whatever the depth, on every table over `n` bytes. -/
def judgement (n : Nat) : Judgement Tidying where
  Holds x Q := ∀ depth, Relining.Safe n (x.run depth) fun r => Q r.1
  pure h _ := .pure h
  bind hx hf depth := .bind (hx depth) fun r holds => hf r.1 holds r.2

theorem holds_lift {α : Type} {x : Relining α} {Q : α → Prop} (h : x.Safe n Q) :
    (judgement n).Holds (liftM x : Tidying α) Q := fun _ =>
  .bind h fun _ holds => .pure holds

variable {opts : Options} {comments : List CommentGroup}

theorem sharing_safe (l : FieldList) :
    (sharing opts l).Safe n fun marks => opts.extra = false → marks = [] := by
  refine .look_bind fun t => .pure fun plain => ?_
  simp [plain]

theorem sharingOpt_safe (o : Option FieldList) :
    (sharingOpt opts o).Safe n fun marks => opts.extra = false → marks = [] := by
  cases o with
  | none => exact .pure fun _ => rfl
  | some l => exact sharing_safe l

theorem joinErrChecks_safe (stmts : List Stmt) :
    (joinErrChecks opts stmts).Safe n fun _ => True := by
  unfold joinErrChecks
  split
  · exact Stmt.joinErrChecks_safe stmts
  · exact .pure trivial

theorem onExpr_sound : Visit.Sound (judgement n) (Expr.Everywhere (Span.Within n)) Expr.words
    (Faithful opts) (onExpr opts) := by
  intro e h
  unfold onExpr
  split
  · refine (judgement n).bind (holds_lift (Expr.spread_safe h.2.1 h.2.2.1)) fun _ _ => ?_
    exact (judgement n).pure fun x kept => (judgement n).pure kept
  · rename_i lit
    refine (judgement n).pure fun x _ => (judgement n).pure ⟨?_, fun faithful => ?_⟩
    · change (lit.modernized opts).span.Within n
      rw [modernized_span]
      exact h
    · rw [modernized_eq faithful]
  · exact (judgement n).pure fun x kept => (judgement n).pure kept

theorem onType_sound : Visit.Sound (judgement n) (TypeExpr.Everywhere (Span.Within n))
    TypeExpr.words (Faithful opts) (onType opts) := by
  intro t h
  unfold onType
  split
  · rename_i elements
    refine (judgement n).bind (holds_lift (sharing_safe elements)) fun marks plain => ?_
    refine (judgement n).pure fun x kept => ?_
    split
    · rename_i pos elements'
      obtain ⟨⟨here, ofElements⟩, same⟩ := kept
      refine (judgement n).pure ⟨⟨here, ?_⟩, fun faithful => ?_⟩
      · exact FieldList.everywhere_mergeMarked marks ofElements
      · rw [plain faithful.1, FieldList.mergeMarked_nil]
        exact same faithful
    · exact (judgement n).pure kept
  · exact (judgement n).pure fun x kept => (judgement n).pure kept

theorem everywhereOpt_mergeMarked {P : Span → Prop} {o : Option FieldList} (marks : List Bool)
    (h : FieldList.EverywhereOpt P o) :
    FieldList.EverywhereOpt P (o.map (·.mergeMarked marks)) := by
  cases o with
  | none => trivial
  | some l => exact FieldList.everywhere_mergeMarked marks h

theorem map_mergeMarked_nil (o : Option FieldList) : o.map (·.mergeMarked []) = o := by
  simp [FieldList.mergeMarked_nil]

theorem onSig_sound : Visit.Sound (judgement n) (Signature.Everywhere (Span.Within n))
    Signature.words (Faithful opts) (onSig opts) := by
  intro s h
  refine (judgement n).bind (holds_lift (sharing_safe s.params)) fun params plain => ?_
  refine (judgement n).bind (holds_lift (sharingOpt_safe s.results)) fun results plain' => ?_
  refine (judgement n).pure fun ⟨_, _⟩ kept => (judgement n).pure ⟨?_, fun faithful => ?_⟩
  · exact ⟨FieldList.everywhere_mergeMarked params kept.1.1,
      everywhereOpt_mergeMarked results kept.1.2⟩
  · rw [plain faithful.1, plain' faithful.1, FieldList.mergeMarked_nil, map_mergeMarked_nil]
    exact kept.2 faithful

theorem onBlock_sound (role : BlockRole) : Visit.Sound (judgement n)
    (Block.Everywhere (Span.Within n)) Block.words (Faithful opts) (onBlock opts comments role) := by
  intro b h
  refine (judgement n).bind (holds_lift (joinErrChecks_safe b.stmts)) fun _ _ => ?_
  refine (judgement n).bind (holds_lift (Block.trim_safe comments _ b)) fun _ _ => ?_
  refine (judgement n).bind (fun _ => .pure trivial) fun _ (_ : True) => ?_
  refine (judgement n).pure fun x kept => ?_
  exact (judgement n).bind (fun _ => .pure trivial) fun _ (_ : True) => (judgement n).pure kept

theorem onStmt_sound : Visit.Sound (judgement n) (Stmt.Everywhere (Span.Within n)) Stmt.words
    (Faithful opts) (onStmt opts comments) := by
  intro s h
  unfold onStmt
  split
  · refine (judgement n).pure fun x kept => (judgement n).pure ⟨?_, fun faithful => ?_⟩
    · exact everywhere_assignment kept.1
    · rw [words_assignment]
      exact kept.2 faithful
  · rename_i casePos values colon body
    refine (judgement n).bind (holds_lift (joinErrChecks_safe body)) fun _ _ => ?_
    refine (judgement n).bind (fun _ => .pure trivial) fun depth (_ : True) => ?_
    refine (judgement n).bind (holds_lift (Stmt.joinHeader_safe comments depth _)) fun _ _ => ?_
    exact (judgement n).pure fun x kept => (judgement n).pure kept
  · rename_i body
    refine (judgement n).bind (holds_lift (joinErrChecks_safe body)) fun _ _ => ?_
    exact (judgement n).pure fun x kept => (judgement n).pure kept
  · exact (judgement n).pure fun x kept => (judgement n).pure kept

theorem onDecl_sound (pos : 0 < n) : Visit.Sound (judgement n) (GenDecl.Everywhere (Span.Within n))
    GenDecl.words (Faithful opts) (onDecl comments) := by
  rintro ⟨doc, kwPos, kind, lparen, specs, rparen⟩ ⟨ofKw, ofLeft, ofSpecs, ofRight⟩
  refine (judgement n).bind (holds_lift (GenDecl.flatten_safe comments _ pos ofKw ofSpecs)) ?_
  intro flat flattened
  refine (judgement n).pure fun x kept => (judgement n).pure ?_
  obtain ⟨_, _, _, _, specs', _⟩ := x
  obtain ⟨⟨-, -, ofSpecs', -⟩, same⟩ := kept
  rcases flattened with rfl | ⟨-, kwPos', within, rfl⟩
  · exact ⟨⟨ofKw, ofLeft, ofSpecs', ofRight⟩, same⟩
  · exact ⟨⟨within, nofun, ofSpecs', nofun⟩, same⟩

theorem onFunc_sound : Visit.Sound (judgement n) (FuncDecl.Everywhere (Span.Within n))
    FuncDecl.words (Faithful opts) (onFunc opts) := by
  intro f h
  refine (judgement n).bind (holds_lift (sharingOpt_safe f.receiver)) fun receiver plain => ?_
  refine (judgement n).bind (holds_lift (sharingOpt_safe f.typeParams)) fun params plain' => ?_
  refine (judgement n).pure fun x kept => (judgement n).pure ⟨?_, fun faithful => ?_⟩
  · obtain ⟨ofFunc, ofReceiver, ofName, ofParams, ofSig, ofBody⟩ := kept.1
    exact ⟨ofFunc, everywhereOpt_mergeMarked receiver ofReceiver, ofName,
      everywhereOpt_mergeMarked params ofParams, ofSig, ofBody⟩
  · rw [plain faithful.1, plain' faithful.1]
    simp only [map_mergeMarked_nil]
    exact kept.2 faithful

theorem visitor_sound (pos : 0 < n) :
    (visitor opts comments).Sound (judgement n) (Span.Within n) (Faithful opts) :=
  ⟨onExpr_sound, onType_sound, onSig_sound, onBlock_sound, onStmt_sound, onDecl_sound pos,
    onFunc_sound⟩

end Tidy

end GoLayout
