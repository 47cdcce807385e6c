import GoLayout.Pattern
import GoLayout.Proofs.Tree.Unify

/-!
Matching is the inverse of substitution. An expression matches a pattern if and only if some
assignment of expressions to the wildcards turns the pattern into its like, and the bindings that
a match leaves are such an assignment. A match adds bindings of further names to those it starts
from and changes none of them.
-/

namespace GoLayout.Pattern

/-- How a pattern is copied where its wildcards are replaced. -/
def filling (s : Bindings) (pos : Option Nat) : Copying where
  place span := pos.elim span .point
  fill name :=
    if isWildcard name then
      (s.lookup name.text).map (·.copy ⟨fun span => pos.elim span .point, fun _ => none⟩)
    else none

theorem subst_eq (p : Expr) (s : Bindings) (pos : Option Nat) :
    subst p s pos = p.copy (filling s pos) := rfl

variable {name : Ident} {s : Bindings} {pos : Option Nat}

/-- A wildcard becomes what it stands for, up to places. -/
theorem shape_fill_wildcard (wild : isWildcard name = true) :
    ((Expr.ident name).copy (filling s pos)).shape = s.shapeOf name.text := by
  rw [Expr.copy, filling, Bindings.shapeOf]
  simp only [if_pos wild]
  cases s.lookup name.text with
  | none => rfl
  | some e => exact Expr.shape_copy (fun _ => rfl) e

theorem shape_fill_name (tame : ¬isWildcard name = true) :
    ((Expr.ident name).copy (filling s pos)).shape = (Expr.ident name).shape := by
  rw [Expr.copy, filling]
  simp only [if_neg tame]
  rfl

theorem check_alike_solves (a e : Expr) :
    (Comparison.check (a.alike e)).Solves fun _ => a.shape = e.shape :=
  .check fun _ => Expr.alike_iff.symm

theorem meet_bound {b : Bindings} {name : String} {bound : Expr} (found : b.lookup name = some bound)
    (e : Expr) : meet name e b = Comparison.check (bound.alike e) b := by
  change (meet name e).run b = (Comparison.check (bound.alike e)).run b
  simp [meet, found]

theorem meet_free {b : Bindings} {name : String} (found : b.lookup name = none) (e : Expr) :
    meet name e b = some ((), b ++ [(name, e)]) := by
  change (meet name e).run b = some ((), b ++ [(name, e)])
  simp [meet, found]

/-- Meeting an expression solves for a name that has its shape. -/
theorem meet_solves (name : String) (e : Expr) :
    (meet name e).Solves fun s => s.shapeOf name = e.shape where
  sound {b b'} run := by
    cases found : b.lookup name with
    | some bound =>
      rw [meet_bound found] at run
      obtain ⟨grows, alike⟩ := (check_alike_solves bound e).sound run
      refine ⟨grows, fun s covers => ?_⟩
      rw [covers name bound (grows.lookup found), alike s covers]
    | none =>
      rw [meet_free found] at run
      obtain rfl : b ++ [(name, e)] = b' := congrArg Prod.snd (Option.some.inj run)
      refine ⟨⟨[(name, e)], rfl, by simpa using found⟩, fun s covers => ?_⟩
      refine covers name e ?_
      rw [List.lookup_append, found]
      simp
  complete {b s} covers solved := by
    cases found : b.lookup name with
    | some bound =>
      rw [meet_bound found]
      refine (check_alike_solves bound e).complete covers ?_
      rw [← covers name bound found, solved]
    | none =>
      refine ⟨b ++ [(name, e)], meet_free found e, fun name' e' found' => ?_⟩
      rw [List.lookup_append] at found'
      cases earlier : b.lookup name' with
      | some e'' =>
        rw [earlier, Option.some_or] at found'
        exact covers name' e' (earlier.trans found')
      | none =>
        rw [earlier, Option.none_or, List.lookup_cons] at found'
        split at found'
        · rename_i same
          obtain rfl := Option.some.inj found'
          rw [beq_iff_eq.mp same, solved]
        · simp at found'

theorem unify_wildcard (wild : isWildcard name = true) (e : Expr) :
    (Expr.ident name).unify wildcards e = meet name.text e := by
  have rule : wildcards name = some (meet name.text) := if_pos wild
  simp only [Expr.unify, rule]

/-- A name that is no wildcard is compared as it is where nothing is bound. -/
theorem unify_name (tame : ¬isWildcard name = true) (e : Expr) :
    (Expr.ident name).unify wildcards e = (Expr.ident name).unify .plain e := by
  have rule : wildcards name = none := if_neg tame
  simp only [Expr.unify, rule]
  rfl

/-- A name of a pattern solves for bindings that fill it in to what it meets. -/
theorem unify_ident_solves (pos : Option Nat) (name : Ident) (e : Expr) :
    ((Expr.ident name).unify wildcards e).Solves fun s =>
      ((Expr.ident name).copy (filling s pos)).shape = e.shape := by
  by_cases wild : isWildcard name = true
  · rw [unify_wildcard wild]
    apply (meet_solves name.text e).congr
    intro s
    rw [shape_fill_wildcard wild]
  · rw [unify_name wild]
    apply (Expr.unify_plain_ident name e).congr
    intro s
    rw [shape_fill_name wild]
    rfl

variable {p c : Expr} {b b' : Bindings}

/-- A match solves for bindings whose substitution in the pattern is like the expression. -/
theorem unify_solves (pos : Option Nat) (p c : Expr) :
    (p.unify wildcards c).Solves fun s => (subst p s pos).alike c = true := by
  apply (Expr.unify_solves (c := fun s => filling s pos) (unify_ident_solves pos) p c).congr
  intro s
  rw [Expr.alike_iff, subst_eq]

theorem match?_eq_some : match? p c b = some b' ↔ p.unify wildcards c b = some ((), b') := by
  rw [match?, Option.map_eq_some_iff]
  constructor
  · rintro ⟨⟨⟨⟩, b''⟩, run, rfl⟩
    exact run
  · intro run
    exact ⟨((), b'), run, rfl⟩

theorem matchInPlace_eq_true :
    matchInPlace p c b = (true, b') ↔ p.unify wildcards c b = some ((), b') := by
  rw [← match?_eq_some, matchInPlace]
  cases match? p c b <;> simp

theorem eq_of_matchInPlace_eq_false (fails : matchInPlace p c b = (false, b')) : b' = b := by
  rw [matchInPlace] at fails
  cases found : match? p c b with
  | some extended => simp [found] at fails
  | none =>
    rw [found] at fails
    exact (congrArg Prod.snd fails).symm

/-- An expression matches a pattern if and only if some assignment turns the pattern into its
like, and the bindings that the match leaves are one. From any bindings, a match that succeeds
only binds further names, and one that fails leaves the bindings as they are. -/
theorem matchInPlace_iff_subst (p c : Expr) (pos : Option Nat) :
    ((matchInPlace p c []).1 = true ↔ ∃ s, (subst p s pos).alike c = true) ∧
    (∀ b, matchInPlace p c [] = (true, b) → (subst p b pos).alike c = true) ∧
    ∀ b b',
      (matchInPlace p c b = (true, b') →
        b.Extends b' ∧ ∀ name e, b.lookup name = some e → b'.lookup name = some e) ∧
      (matchInPlace p c b = (false, b') → b' = b) := by
  have solves := unify_solves pos p c
  have sound : ∀ b, matchInPlace p c [] = (true, b) → (subst p b pos).alike c = true := by
    intro b found
    exact (solves.sound (matchInPlace_eq_true.mp found)).2 b b.covers_self
  refine ⟨⟨?_, ?_⟩, sound, fun b b' => ⟨?_, eq_of_matchInPlace_eq_false⟩⟩
  · intro found
    exact ⟨(matchInPlace p c []).2, sound _ (Prod.ext found rfl)⟩
  · rintro ⟨s, alike⟩
    obtain ⟨b', run, -⟩ := solves.complete (Bindings.covers_nil s) alike
    rw [matchInPlace_eq_true.mpr run]
  · intro found
    have grows := (solves.sound (matchInPlace_eq_true.mp found)).1
    exact ⟨grows, fun name e bound => grows.lookup bound⟩

end GoLayout.Pattern
