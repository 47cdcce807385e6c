import GoLayout.Proofs.Form.File
import GoLayout.Proofs.Tree.Statements
import GoLayout.Simplify

/-!
Simplified files. A range drops its blank variables, and its token with the last of them: none is
left at any depth that could be dropped, and nothing else in the file changes.
-/

namespace GoLayout

open Constituent (stmtParts)

/-! ### One statement -/

namespace Stmt

/-- What may become of a statement: a range drops a blank value, or all of its variables where they
are blank and, with `bare`, need not be there. -/
inductive Drops (bare : Bool) : Stmt → Stmt → Prop
  | nothing {s : Stmt} : Drops bare s s
  | value {forPos key v op rangePos operand body} (blank : v.isBlank) :
    Drops bare (.range forPos key (some v) op rangePos operand body)
      (.range forPos key none op rangePos operand body)
  | all {forPos k value op rangePos operand body} (allowed : bare) (keyBlank : k.isBlank)
    (valueBlank : ∀ v ∈ value, v.isBlank) :
    Drops bare (.range forPos (some k) value op rangePos operand body)
      (.range forPos none none none rangePos operand body)

/-- Nothing is left to drop of a range: its value is not blank, and a blank key is there for the sake
of the value, or because there has to be one. -/
def Trimmed (bare : Bool) : Stmt → Prop
  | .range _ key value _ _ _ _ => (∀ v ∈ value, ¬ v.isBlank) ∧
    ∀ k ∈ key, k.isBlank → (∃ v ∈ value, ¬ v.isBlank) ∨ bare = false
  | _ => True

variable {bare : Bool} {s s' : Stmt}

theorem dropBlanks_drops (s : Stmt) : s.Drops bare (s.dropBlanks bare) := by
  cases s with
  | range forPos key value op rangePos operand body =>
    simp only [dropBlanks]
    split
    next drops =>
      simp only [Bool.and_eq_true, Option.any_eq_true, Option.isNone_iff_eq_none,
        Option.filter_eq_none_iff] at drops
      obtain ⟨⟨allowed, k, rfl, blank⟩, valueBlank⟩ := drops
      exact .all allowed blank (by simpa using valueBlank)
    next =>
      cases value with
      | none => exact .nothing
      | some v =>
        by_cases blank : v.isBlank
        · simpa [Option.filter, blank] using Drops.value blank
        · simpa [Option.filter, blank] using Drops.nothing
  | _ => exact .nothing

theorem dropBlanks_trimmed (s : Stmt) : (s.dropBlanks bare).Trimmed bare := by
  cases s with
  | range forPos key value op rangePos operand body =>
    simp only [dropBlanks]
    split
    next => exact ⟨nofun, nofun⟩
    next keeps =>
      have named : ∀ v ∈ value.filter (!·.isBlank), ¬ v.isBlank := by simp
      refine ⟨named, fun k isKey blank => ?_⟩
      cases left : value.filter (!·.isBlank) with
      | none =>
        refine .inr ?_
        simpa [left, Option.mem_def.mp isKey, blank] using keeps
      | some v => exact .inl ⟨v, rfl, named v left⟩
  | _ => trivial

theorem dropBlanks_of_trimmed (h : s.Trimmed bare) : s.dropBlanks bare = s := by
  cases s with
  | range forPos key value op rangePos operand body =>
    obtain ⟨named, needed⟩ := h
    have all : value.filter (!·.isBlank) = value := by
      cases value with
      | none => rfl
      | some v => simpa [Option.filter] using named v rfl
    simp only [dropBlanks, all]
    refine if_neg fun drops => ?_
    simp only [Bool.and_eq_true, Option.any_eq_true, Option.isNone_iff_eq_none] at drops
    obtain ⟨⟨allowed, k, isKey, blank⟩, rfl⟩ := drops
    rcases needed k isKey blank with ⟨v, isValue, -⟩ | required
    · cases isValue
    · cases allowed.symm.trans required
  | _ => rfl

theorem Drops.parts (h : s.Drops bare s') : stmtParts s' ⊆ stmtParts s := by
  cases h with
  | nothing => exact fun _ mem => mem
  | value blank => simp [stmtParts]
  | all allowed keyBlank valueBlank => simp [stmtParts]

theorem Drops.assigned (h : s.Drops bare s') (assigned : (Node.stmt s).Assigned) :
    (Node.stmt s').Assigned := by
  cases h with
  | nothing => exact assigned
  | value blank => exact assigned
  | all allowed keyBlank valueBlank => rfl

/-- A statement is changed once the statements in it are. -/
theorem exists_mapStmts {g : Stmt → Stmt} (s : Stmt) :
    ∃ t, s.mapStmts g = g t ∧ ((Node.stmt s).Assigned → (Node.stmt t).Assigned) := by
  cases s with
  | range forPos key value op rangePos operand body =>
    refine ⟨_, rfl, fun assigned => ?_⟩
    cases key <;> exact assigned
  | _ => exact ⟨_, rfl, fun _ => trivial⟩

end Stmt

/-! ### Files -/

namespace SourceFile

variable {f : SourceFile} {opts : Options}

/-- Simplifying changes one statement after the other. -/
theorem simplify_eq : f.simplify opts = f.mapStmts (Stmt.dropBlanks opts.allowsBareRange) := by
  have decls : Decl.visitAll (.blankDropper opts.allowsBareRange) f.decls =
      f.decls.map (Decl.mapStmts (Stmt.dropBlanks opts.allowsBareRange)) :=
    Decl.visitAll_stmtwise f.decls
  rw [simplify, decls]
  rfl

theorem allowsBareRange_eq_false :
    opts.allowsBareRange = false ↔ ∃ version ∈ opts.lang, ¬ version.atLeast 1 4 := by
  unfold Options.allowsBareRange
  cases opts.lang <;> simp

/-- The statements of a simplified file: each has been changed once the statements in it had. -/
theorem of_simplified {s' : Stmt} (mem : .stmt s' ∈ (f.simplify opts).nodes) :
    ∃ s t, .stmt s ∈ f.nodes ∧ s' = t.dropBlanks opts.allowsBareRange ∧
      ((Node.stmt s).Assigned → (Node.stmt t).Assigned) := by
  rw [simplify_eq] at mem
  have fewer : ∀ s : Stmt, stmtParts (s.dropBlanks opts.allowsBareRange) ⊆ stmtParts s :=
    fun s => s.dropBlanks_drops.parts
  obtain ⟨m, inFile, same⟩ := List.mem_map.mp (nodes_mapStmts fewer mem)
  cases m with
  | stmt s =>
    cases same
    obtain ⟨t, changed, assigned⟩ := s.exists_mapStmts
    exact ⟨s, t, inFile, changed, assigned⟩
  | _ => cases same

theorem trimmed_of_simplified {s : Stmt} (mem : .stmt s ∈ (f.simplify opts).nodes) :
    s.Trimmed opts.allowsBareRange := by
  obtain ⟨-, t, -, rfl, -⟩ := of_simplified mem
  exact t.dropBlanks_trimmed

theorem assigned_of_simplified (assigned : ∀ m ∈ f.nodes, m.Assigned) {s : Stmt}
    (mem : .stmt s ∈ (f.simplify opts).nodes) : (Node.stmt s).Assigned := by
  obtain ⟨_, t, inFile, rfl, kept⟩ := of_simplified mem
  exact t.dropBlanks_drops.assigned (kept (assigned _ inFile))

theorem simplify_simplify : (f.simplify opts).simplify opts = f.simplify opts := by
  rw [simplify_eq (f := f.simplify opts)]
  exact mapStmts_eq_self fun s mem => Stmt.dropBlanks_of_trimmed (trimmed_of_simplified mem)

/-- A range of a simplified file, at any depth, has no blank value, and a blank key only if a value
follows or the version has no ranges without variables; and it is assigned exactly if it has a key.
All statements that the file had are still there but for the blank variables that their ranges drop,
one after the other, and nothing is left to simplify. -/
theorem simplify_normal {src : String} (read : parse src = .ok f) (opts : Options) :
    (∀ forPos key value op rangePos operand body,
      Node.stmt (.range forPos key value op rangePos operand body) ∈ (f.simplify opts).nodes →
        (∀ v ∈ value, ¬ v.isBlank) ∧
        (∀ k ∈ key, k.isBlank →
          (∃ v ∈ value, ¬ v.isBlank) ∨ ∃ version ∈ opts.lang, ¬ version.atLeast 1 4) ∧
        op.isSome = key.isSome) ∧
      (∃ g : Stmt → Stmt, (∀ s : Stmt, s.Drops opts.allowsBareRange (g s)) ∧
        f.simplify opts = { f with decls := f.decls.map (Decl.mapStmts g) }) ∧
      (f.simplify opts).simplify opts = f.simplify opts := by
  obtain ⟨input, made, closed, formed, comments⟩ := formed_of_parse read
  have assigned : ∀ m ∈ f.nodes, m.Assigned := fun m mem => (formed m mem).assigned
  refine ⟨fun forPos key value op rangePos operand body mem => ?_, ?_, simplify_simplify⟩
  · obtain ⟨named, needed⟩ := trimmed_of_simplified mem
    refine ⟨named, fun k isKey blank => ?_, assigned_of_simplified assigned mem⟩
    exact (needed k isKey blank).imp id allowsBareRange_eq_false.mp
  · exact ⟨_, Stmt.dropBlanks_drops, simplify_eq⟩

/-- A range in the length of an array, in a function, in the body of another range: both have a blank
variable, and no range has a value once they are dropped. -/
theorem simplify_normal_of_nested :
    ∃ f, parse ("package p\n\nfunc f() \x7b\n\tfor _ = range x \x7b\n\t\tvar a [n(func() \x7b\n" ++
        "\t\t\tfor k, _ := range y \x7b\n\t\t\t\x7d\n\t\t\x7d)]T\n\t\x7d\n\x7d\n") = .ok f ∧
      (f.nodes.countP fun
        | .stmt (.range _ key value _ _ _ _) => value.or key |>.any Expr.isBlank
        | _ => false) = 2 ∧
      ((f.simplify ⟨none, false, none, true, none⟩).nodes.filterMap fun
        | .stmt (.range _ key value _ _ _ _) => some (key.isSome, value.isSome)
        | _ => none) = [(false, false), (true, false)] ∧
      ∀ forPos key value op rangePos operand body,
        Node.stmt (.range forPos key value op rangePos operand body) ∈
          (f.simplify ⟨none, false, none, true, none⟩).nodes →
            (∀ v ∈ value, ¬ v.isBlank) ∧ op.isSome = key.isSome := by
  generalize source : parse _ = parsed
  have ranges : (parsed.toOption.map fun f => ((f.nodes.countP fun
        | .stmt (.range _ key value _ _ _ _) => value.or key |>.any Expr.isBlank
        | _ => false),
      ((f.simplify ⟨none, false, none, true, none⟩).nodes.filterMap fun
        | .stmt (.range _ key value _ _ _ _) => some (key.isSome, value.isSome)
        | _ => none))) = some (2, [(false, false), (true, false)]) := by
    rw [← source]
    decide +kernel
  cases parsed with
  | error e => cases ranges
  | ok f =>
    obtain ⟨blank, left⟩ := Prod.mk.inj (Option.some.inj ranges)
    refine ⟨f, rfl, blank, left, fun forPos key value op rangePos operand body mem => ?_⟩
    obtain ⟨named, -, assigned⟩ := (simplify_normal source _).1 _ _ _ _ _ _ _ mem
    exact ⟨named, assigned⟩

end SourceFile

end GoLayout
