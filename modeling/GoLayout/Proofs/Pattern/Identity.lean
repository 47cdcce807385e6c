import GoLayout.Proofs.Pattern.Match
import GoLayout.Proofs.Pattern.Rule
import GoLayout.Proofs.Tree.Tally
import Mathlib.Data.List.Basic

/-!
Rules with the same text on both sides. What such a rule puts in the place of an expression is the
expression over again, so the rule changes nothing but the places of tokens, and what it meets on
its way up still matches where the original did.
-/

namespace GoLayout

/-! ### The two sides of a rule -/

namespace Text

section Black

variable {w : List Char} (black : ∀ c ∈ w, isWhite c = false) (nonempty : w ≠ [])

include black nonempty

theorem dropWhile_isWhite_append (before after : List Char) :
    (before ++ w ++ after).dropWhile isWhite = before.dropWhile isWhite ++ w ++ after := by
  obtain ⟨c, rest, rfl⟩ := List.exists_cons_of_ne_nil nonempty
  have first : isWhite c = false := black c (.head rest)
  induction before with
  | nil => simp [first]
  | cons d before ih =>
    by_cases white : isWhite d = true
    · simpa [white] using ih
    · simp [white]

/-- White space is stripped from around a text that has none in it. -/
theorem strip_append (before after : List Char) :
    ∃ before' after', strip (before ++ w ++ after) = before' ++ w ++ after' := by
  have black' : ∀ c ∈ w.reverse, isWhite c = false := fun c mem => black c (List.mem_reverse.mp mem)
  have nonempty' : w.reverse ≠ [] := by simpa using nonempty
  refine ⟨before.dropWhile isWhite, (after.reverse.dropWhile isWhite).reverse, ?_⟩
  rw [strip, dropWhile_isWhite_append black nonempty]
  rw [List.reverse_append, List.reverse_append, ← List.append_assoc,
    dropWhile_isWhite_append black' nonempty']
  simp

end Black

theorem strip_cons_white {c : Char} (white : isWhite c = true) (cs : List Char) :
    strip (c :: cs) = strip cs := by
  simp [strip, white]

theorem strip_concat_white {c : Char} (white : isWhite c = true) (cs : List Char) :
    strip (cs ++ [c]) = strip cs := by
  unfold strip
  rw [List.dropWhile_append]
  split
  · rename_i allWhite
    simp [List.isEmpty_iff.mp allWhite, white]
  · simp [white]

end Text

namespace Rule

theorem arrow_black (c : Char) (mem : c ∈ arrow) : Text.isWhite c = false := by
  rcases List.mem_pair.mp mem with rfl | rfl
  · rfl
  · rfl

/-- A text is cut at its first arrow; if it has none, at the one that follows behind a space. -/
theorem cut_arrow (cs more : List Char) :
    Text.cut arrow (cs ++ ' ' :: '-' :: '>' :: more) =
      match Text.cut arrow cs with
      | some (before, after) => some (before, after ++ ' ' :: '-' :: '>' :: more)
      | none => some (cs ++ [' '], more) := by
  induction cs with
  | nil => rfl
  | cons c cs ih =>
    rw [List.cons_append, Text.cut, Text.cut]
    cases begins : arrow.isPrefixOf? (c :: cs) with
    | some after =>
      have whole : arrow ++ after = c :: cs := List.isPrefixOf?_eq_some_iff_append_eq.mp begins
      have begins' : arrow.isPrefixOf? (c :: (cs ++ ' ' :: '-' :: '>' :: more)) =
          some (after ++ ' ' :: '-' :: '>' :: more) := by
        rw [List.isPrefixOf?_eq_some_iff_append_eq, ← List.append_assoc, whole, List.cons_append]
      rw [begins']
    | none =>
      have begins' : arrow.isPrefixOf? (c :: (cs ++ ' ' :: '-' :: '>' :: more)) = none := by
        -- An arrow at the start would stand in the text before the space.
        cases found : arrow.isPrefixOf? (c :: (cs ++ ' ' :: '-' :: '>' :: more)) with
        | none => rfl
        | some after =>
          have whole := List.isPrefixOf?_eq_some_iff_append_eq.mp found
          cases cs with
          | nil => simp [arrow] at whole
          | cons d cs =>
            obtain ⟨rfl, rfl, -⟩ : '-' = c ∧ '>' = d ∧ after = _ := by simpa [arrow] using whole
            simp [arrow, List.isPrefixOf?] at begins
      rw [begins', ih]
      dsimp only
      cases Text.cut arrow cs with
      | none => rfl
      | some sides => rfl

theorem isSome_cut_arrow (before after : List Char) :
    (Text.cut arrow (before ++ arrow ++ after)).isSome = true := by
  induction before with
  | nil => rfl
  | cons c before ih =>
    rw [List.cons_append, List.cons_append, Text.cut]
    split
    · rfl
    · rw [Option.isSome_map]
      exact ih

theorem sides?_eq_some {cs left right : List Char} (h : sides? cs = some (left, right)) :
    ∃ before after, Text.cut arrow cs = some (before, after) ∧ left = Text.strip before ∧
      right = Text.strip after ∧ Text.cut arrow right = none := by
  obtain ⟨⟨before, after⟩, found, h⟩ := Option.bind_eq_some_iff.mp h
  obtain ⟨⟨⟩, guarded, h⟩ := Option.bind_eq_some_iff.mp h
  obtain ⟨rfl, rfl⟩ := Prod.mk.inj (Option.some.inj h)
  refine ⟨before, after, found, rfl, rfl, ?_⟩
  by_contra second
  have fails : (Text.cut arrow (Text.strip after)).isNone = false := by
    simpa [Option.isSome_iff_ne_none] using second
  simp [fails, guard] at guarded

/-- Where one text stands on both sides of a rule, both sides are read from one text. -/
theorem sides?_same {cs left right : List Char}
    (h : sides? (cs ++ ' ' :: '-' :: '>' :: ' ' :: cs) = some (left, right)) : left = right := by
  obtain ⟨before, after, found, rfl, rfl, single⟩ := sides?_eq_some h
  rw [cut_arrow] at found
  cases first : Text.cut arrow cs with
  | some parts =>
    -- The arrow in the middle is the second one, and a rule has only one.
    obtain ⟨front, back⟩ := parts
    rw [first] at found
    obtain ⟨rfl, rfl⟩ := Prod.mk.inj (Option.some.inj found)
    have parts : back ++ ' ' :: '-' :: '>' :: ' ' :: cs = back ++ [' '] ++ arrow ++ ' ' :: cs := by
      simp [arrow]
    obtain ⟨before', after', stripped⟩ := Text.strip_append arrow_black (List.cons_ne_nil _ _)
      (back ++ [' ']) (' ' :: cs)
    have second := isSome_cut_arrow before' after'
    rw [← stripped, ← parts, single] at second
    exact absurd second (by decide)
  | none =>
    rw [first] at found
    obtain ⟨rfl, rfl⟩ := Prod.mk.inj (Option.some.inj found)
    rw [Text.strip_concat_white (by decide), Text.strip_cons_white (by decide)]

/-- The sides of a rule that are read from one text are one expression. -/
theorem parse_same {text : String} {r : Rule} (h : parse (text ++ " -> " ++ text) = .ok r) :
    r.replacement.expr = r.pattern.expr := by
  have chars : (text ++ " -> " ++ text).toList =
      text.toList ++ ' ' :: '-' :: '>' :: ' ' :: text.toList := by simp
  rw [parse, chars] at h
  cases sides : sides? (text.toList ++ ' ' :: '-' :: '>' :: ' ' :: text.toList) with
  | none => simp [sides, throw, throwThe, MonadExceptOf.throw] at h
  | some both =>
    obtain ⟨left, right⟩ := both
    obtain rfl : left = right := sides?_same sides
    simp only [sides] at h
    obtain ⟨pattern, ofPattern, h⟩ := exists_of_bind_eq_ok h
    obtain ⟨replacement, ofReplacement, h⟩ := exists_of_bind_eq_ok h
    obtain rfl : _ = r := Except.ok.inj h
    have reads := replacement.reads
    rw [text_of_readSide ofReplacement, ← text_of_readSide ofPattern, pattern.reads] at reads
    exact (Except.ok.inj reads).symm

end Rule

/-! ### Matches and shapes -/

namespace Pattern

variable {p c c' : Expr}

/-- Whether an expression matches is a matter of its shape. -/
theorem matchInPlace_congr (same : c.shape = c'.shape) :
    (matchInPlace p c []).1 = (matchInPlace p c' []).1 := by
  have reaches {c c' : Expr} (same : c.shape = c'.shape) (found : (matchInPlace p c []).1 = true) :
      (matchInPlace p c' []).1 = true := by
    -- The bindings of the one match turn the pattern into what is like the other expression too.
    let b := (matchInPlace p c []).2
    have run := matchInPlace_eq_true.mp (Prod.ext found rfl : matchInPlace p c [] = (true, b))
    have alike := ((unify_solves none p c).sound run).2 b b.covers_self
    rw [Expr.alike_iff, same, ← Expr.alike_iff] at alike
    obtain ⟨b', run', -⟩ := (unify_solves none p c').complete (Bindings.covers_nil b) alike
    rw [matchInPlace_eq_true.mpr run']
  rw [Bool.eq_iff_iff]
  exact ⟨reaches same, reaches same.symm⟩

end Pattern

namespace Rule

variable {r : Rule}

/-- Whether an expression matches the pattern of the rule. -/
def applies (r : Rule) (e : Expr) : Bool := (Pattern.matchInPlace r.pattern.expr e []).1

theorem isSome_replace? (e : Expr) : (r.replace? e).isSome = r.applies e := by
  rw [replace?, Option.isSome_map, applies, Pattern.matchInPlace]
  cases Pattern.match? r.pattern.expr e [] <;> rfl

section Identity

variable (same : r.replacement.expr = r.pattern.expr)

include same

theorem shape_replace? {e e' : Expr} (h : r.replace? e = some e') : e'.shape = e.shape := by
  obtain ⟨bindings, found, rfl⟩ := Option.map_eq_some_iff.mp h
  rw [same]
  have solves := Pattern.unify_solves (some e.pos) r.pattern.expr e
  have alike := (solves.sound (Pattern.match?_eq_some.mp found)).2 bindings bindings.covers_self
  exact Expr.alike_iff.mp alike

theorem visitor_counts : r.visitor.Counts r.applies := by
  refine ⟨fun e => .pure fun x like => ?_, Visit.counts_skip, Visit.counts_skip,
    fun _ => Visit.counts_skip, Visit.counts_skip, Visit.counts_skip, Visit.counts_skip⟩
  have asBefore : r.applies x = r.applies e := Pattern.matchInPlace_congr like
  change Tallies _ (r.applies e).toNat (SameShape Expr.shape e)
  rw [← asBefore, ← isSome_replace?]
  cases replaced : r.replace? x with
  | none => exact .pure like
  | some x' =>
    intro k
    exact ⟨x', rfl, (shape_replace? same replaced).trans like⟩

end Identity

/-- A rule with one text on both sides rewrites nothing. Applying it does not fail, the declarations
of the file stay like what they were, and the count is that of the expressions in the file that
match the text. -/
theorem applyAll_identity {text : String} {r : Rule} (f : SourceFile)
    (accepted : parse (text ++ " -> " ++ text) = .ok r) :
    r.rewrite f = .ok (r.applyAll f) ∧
    List.Forall₂ (fun d d' => Decl.alike d d' = true) f.decls (r.applyAll f).1.decls ∧
    (r.applyAll f).2 = (f.nodes.filterMap Node.expr?).countP fun e =>
      (Pattern.matchInPlace r.pattern.expr e []).1 := by
  obtain ⟨decls, run, like⟩ := Decl.visitAll_tallies (visitor_counts (parse_same accepted))
    f.decls 0
  have applied : r.applyAll f = ({ f with decls },
      (f.nodes.filterMap Node.expr?).countP r.applies) := by
    rw [applyAll, run, Nat.zero_add, Node.tally_eq_countP]
    rfl
  refine ⟨r.rewrite_eq f, ?_⟩
  rw [applied]
  refine ⟨?_, rfl⟩
  have shapes : List.Forall₂ Eq (f.decls.map Decl.shape) (decls.map Decl.shape) := by
    rw [like]
    exact List.forall₂_refl _
  rw [List.forall₂_map_left_iff, List.forall₂_map_right_iff] at shapes
  exact shapes.imp fun _ _ alike => Decl.alike_iff.mpr alike

/-- The call of a call, in which two expressions match. -/
theorem applyAll_identity_of_calls :
    ∃ r f, parse ("f(x)" ++ " -> " ++ "f(x)") = .ok r ∧
      SourceFile.parse "package p\n\nvar a = f(f(b))\n" = .ok f ∧
      r.rewrite f = .ok (r.applyAll f) ∧
      List.Forall₂ (fun d d' => Decl.alike d d' = true) f.decls (r.applyAll f).1.decls ∧
      (r.applyAll f).2 = 2 := by
  generalize ruleText : parse ("f(x)" ++ " -> " ++ "f(x)") = ruled
  generalize source : SourceFile.parse "package p\n\nvar a = f(f(b))\n" = parsed
  have counted : (parsed.toOption.bind fun f => ruled.toOption.map fun r =>
      (f.nodes.filterMap Node.expr?).countP fun e =>
        (Pattern.matchInPlace r.pattern.expr e []).1) = some 2 := by
    rw [← source, ← ruleText]
    decide +kernel
  cases parsed with
  | error e => simp [Except.toOption] at counted
  | ok f =>
    cases ruled with
    | error e => simp [Except.toOption] at counted
    | ok r =>
      obtain ⟨rewritten, alike, count⟩ := applyAll_identity f ruleText
      exact ⟨r, f, rfl, rfl, rewritten, alike, count.trans (Option.some.inj counted)⟩

end Rule

end GoLayout
