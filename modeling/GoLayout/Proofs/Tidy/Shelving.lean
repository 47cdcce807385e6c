import GoLayout.Proofs.Grammar.Stmt
import GoLayout.Proofs.LineTable
import GoLayout.Tidy.Imports

/-!
Sorting out one import. It stays in the first run of the standard library, or that run is over and
the import goes to one of two shelves: what can be moved is put at the keyword, and the rest is
kept. A line is joined only where an import that is alone on its line is moved.
-/

namespace GoLayout

/-! ### Imports that are copied -/

namespace Spec

/-- Whether a spec imports from the standard library. -/
def isStandard (modulePath : Option String) : Spec → Bool
  | .importSpec s => Imports.isStandard modulePath s.path.unquoted
  | _ => false

/-- Whether an import is given a name. -/
def isNamed : Spec → Bool
  | .importSpec s => s.name.isSome
  | _ => false

/-- Whether a comment stands behind an import. -/
def hasComment : Spec → Bool
  | .importSpec s => s.comment.isSome
  | _ => false

/-- Whether gathering moves an import that is not in the first run. -/
def isMovable (modulePath : Option String) (s : Spec) : Bool :=
  s.isStandard modulePath && !s.isNamed && !s.hasComment

variable {s : Spec}

@[simp] theorem isStandard_restamp {modulePath : Option String} {pos : Nat} :
    (s.restamp pos).isStandard modulePath = s.isStandard modulePath := by
  cases s <;> rfl

@[simp] theorem isNamed_restamp {pos : Nat} : (s.restamp pos).isNamed = s.isNamed := by
  cases s with
  | importSpec i => exact Option.isSome_map
  | valueSpec | typeSpec => rfl

@[simp] theorem hasComment_restamp {pos : Nat} : (s.restamp pos).hasComment = false := by
  cases s <;> rfl

theorem IsImport.pos_restamp (h : s.IsImport) (pos : Nat) : (s.restamp pos).pos = pos := by
  obtain ⟨⟨_, name, _, _⟩, rfl⟩ := h
  rcases name with - | - | -
  all_goals rfl

theorem IsImport.stop_restamp (h : s.IsImport) (pos : Nat) : (s.restamp pos).stop = pos := by
  obtain ⟨_, rfl⟩ := h
  rfl

end Spec

/-- On the lines `t` the computation does the same as one of `C`. -/
def Relining.OneOf {α : Type} (C : Relining α → Prop) (t : LineTable) (x : Relining α) : Prop :=
  ∃ y, C y ∧ x t = y t

namespace Relining.OneOf

variable {α β : Type} {C : Relining α → Prop} {t : LineTable} {x : Relining α}
  {Q : α → LineTable → Prop}

theorem of (h : C x) : x.OneOf C t := ⟨x, h, rfl⟩

theorem get_bind {f : LineTable → Relining α} (h : (f t).OneOf C t) : (get >>= f).OneOf C t := h

theorem gives (h : x.OneOf C t) (each : ∀ y, C y → Gives y t Q) : Gives x t Q := by
  obtain ⟨y, mem, same⟩ := h
  unfold Gives
  rw [same]
  exact each y mem

theorem yields (h : x.OneOf C t) (each : ∀ y, C y → Yields y t Q) : Yields x t Q := by
  obtain ⟨y, mem, same⟩ := h
  unfold Yields
  rw [same]
  exact each y mem

end Relining.OneOf

namespace Imports

variable {modulePath : Option String} {home line : Nat} {prev : Option Spec} {next : Option Nat}
  {s : Spec} {rest : List Spec} {t : LineTable} {g g' g'' : Gathering}

/-! ### Shelves -/

/-- The imports that are moved, at `home`. -/
def movedTo (modulePath : Option String) (home : Nat) (specs : List Spec) : List Spec :=
  (specs.filter (·.isMovable modulePath)).map (·.restamp home)

/-- The imports that are not moved. -/
def unmoved (modulePath : Option String) (specs : List Spec) : List Spec :=
  specs.filter (!·.isMovable modulePath)

/-- Imports behind the first run are sorted out: those that can be moved are put at `home`. -/
structure Gathering.Shelves (modulePath : Option String) (home : Nat) (rest : List Spec)
    (g g' : Gathering) : Prop where
  standard : g'.standard = g.standard ++ movedTo modulePath home rest
  other : g'.other = g.other ++ unmoved modulePath rest
  moved : g'.moved = (g.moved || rest.any (·.isMovable modulePath))
  standardLine : g'.standardLine = g.standardLine

namespace Gathering.Shelves

theorem refl : g.Shelves modulePath home [] g :=
  ⟨by simp [movedTo], by simp [unmoved], by simp, rfl⟩

theorem cons (first : g.Shelves modulePath home [s] g')
    (behind : g'.Shelves modulePath home rest g'') : g.Shelves modulePath home (s :: rest) g'' where
  standard := by
    rw [behind.standard, first.standard, List.append_assoc, movedTo, movedTo, ← List.map_append,
      ← List.filter_append]
    rfl
  other := by
    rw [behind.other, first.other, List.append_assoc, unmoved, unmoved, ← List.filter_append]
    rfl
  moved := by
    rw [behind.moved, first.moved, Bool.or_assoc, ← List.any_append]
    rfl
  standardLine := behind.standardLine.trans first.standardLine

theorem single (movable : s.isMovable modulePath)
    (standard : g'.standard = g.standard ++ [s.restamp home]) (other : g'.other = g.other)
    (moved : g'.moved = true) (standardLine : g'.standardLine = g.standardLine) :
    g.Shelves modulePath home [s] g' := by
  refine ⟨?_, ?_, ?_, standardLine⟩
  · simpa [movedTo, movable] using standard
  · simpa [unmoved, movable] using other
  · simpa [movable] using moved

theorem kept (fixed : s.isMovable modulePath = false) (standard : g'.standard = g.standard)
    (other : g'.other = g.other ++ [s]) (moved : g'.moved = g.moved)
    (standardLine : g'.standardLine = g.standardLine) : g.Shelves modulePath home [s] g' := by
  refine ⟨?_, ?_, ?_, standardLine⟩
  · simpa [movedTo, fixed] using standard
  · simpa [unmoved, fixed] using other
  · simpa [fixed] using moved

/-- One import goes to either shelf. -/
theorem lists (h : g.Shelves modulePath home [s] g') :
    (g'.standard = g.standard ++ [s.restamp home] ∧ g'.other = g.other) ∨
      (g'.standard = g.standard ∧ g'.other = g.other ++ [s]) := by
  obtain ⟨standard, other, -, -⟩ := h
  by_cases movable : s.isMovable modulePath
  · simp only [movedTo, unmoved, movable, List.filter_cons, Bool.not_true, ite_true] at standard other
    exact .inl ⟨standard, by simpa using other⟩
  · simp only [movedTo, unmoved, movable, List.filter_cons, Bool.not_false, ite_true] at standard other
    exact .inr ⟨by simpa using standard, other⟩

end Gathering.Shelves

/-! ### One import -/

/-- What is sorted out so far, as the next import begins on the line `line`: a blank line before it
ends the first run. -/
def Gathering.onLine (prev : Option Spec) (line : Nat) (g : Gathering) : Gathering :=
  if prev.isSome && g.inFirst && g.lastLine + 1 < line then { g with inFirst := false }
  else { g with lastLine := line }

section OnLine

@[simp] theorem standard_onLine : (g.onLine prev line).standard = g.standard := by
  unfold Gathering.onLine
  split
  all_goals rfl

@[simp] theorem other_onLine : (g.onLine prev line).other = g.other := by
  unfold Gathering.onLine
  split
  all_goals rfl

@[simp] theorem moved_onLine : (g.onLine prev line).moved = g.moved := by
  unfold Gathering.onLine
  split
  all_goals rfl

@[simp] theorem standardLine_onLine : (g.onLine prev line).standardLine = g.standardLine := by
  unfold Gathering.onLine
  split
  all_goals rfl

theorem inFirst_of_onLine (h : (g.onLine prev line).inFirst) :
    g.inFirst ∧ (prev = none ∨ line ≤ g.lastLine + 1) ∧
      g.onLine prev line = { g with lastLine := line } := by
  unfold Gathering.onLine at h ⊢
  split at h
  · nomatch h
  · rename_i near
    have inFirst : g.inFirst := h
    refine ⟨inFirst, ?_, if_neg near⟩
    cases prev with
    | none => exact .inl rfl
    | some p =>
      simp only [Option.isSome_some, inFirst, Bool.and_self, Bool.true_and, decide_eq_true_eq] at near
      exact .inr (Nat.le_of_not_lt near)

theorem far_of_onLine (ended : ¬(g.onLine prev line).inFirst) (inFirst : g.inFirst) :
    prev.isSome ∧ g.lastLine + 1 < line := by
  unfold Gathering.onLine at ended
  split at ended
  · rename_i far
    simp only [Bool.and_eq_true, decide_eq_true_eq] at far
    exact ⟨far.1.1, far.2⟩
  · exact absurd inFirst ended

end OnLine

/-- An import of the standard library that leaves the first run stands below a blank line. -/
structure Gathering.Leaves (modulePath : Option String) (home : Nat) (t : LineTable)
    (prev : Option Spec) (s : Spec) (g g' : Gathering) : Prop where
  far : g.inFirst → s.isStandard modulePath → prev.isSome ∧ g.lastLine + 1 < t.line s.pos
  ended : s.IsImport → g'.inFirst = false
  shelved : g.Shelves modulePath home [s] g'

/-- An import of another module leaves the first run wherever it stands. -/
theorem Gathering.Leaves.foreign (foreign : s.isStandard modulePath = false)
    (ended : s.IsImport → g'.inFirst = false) (standard : g'.standard = g.standard)
    (other : g'.other = g.other ++ [s]) (moved : g'.moved = g.moved)
    (standardLine : g'.standardLine = g.standardLine) :
    g.Leaves modulePath home t prev s g' where
  far := fun _ isStandard => absurd isStandard (by simp [foreign])
  ended := ended
  shelved := .kept (by simp [Spec.isMovable, foreign]) standard other moved standardLine

/-- What sorting out one spec comes to on the lines `t`. -/
inductive Gathering.Sorting (modulePath : Option String) (home : Nat) (t : LineTable)
    (prev : Option Spec) (s : Spec) (g : Gathering) : Relining Gathering → Prop
  | stays (inFirst : g.inFirst) (standard : s.isStandard modulePath)
    (near : prev = none ∨ t.line s.pos ≤ g.lastLine + 1) :
    Sorting modulePath home t prev s g (pure { g with
      standard := g.standard ++ [s]
      lastLine := t.line s.pos
      standardLine := max g.standardLine (t.line s.stop) })
  | leaves {g' : Gathering} (left : g.Leaves modulePath home t prev s g') :
    Sorting modulePath home t prev s g (pure g')
  /-- The line of the import is joined with the one above it. -/
  | joins {g' : Gathering} (left : g.Leaves modulePath home t prev s g')
    (later : prev = none → ¬g.inFirst) (alone : ∀ p ∈ prev, t.line p.stop < t.line s.pos) :
    Sorting modulePath home t prev s g (do
      LineTable.mergeLine (t.line s.pos - 1)
      return g')

theorem gatherSpec_sorting : (gatherSpec modulePath home prev next s g).OneOf
    (g.Sorting modulePath home t prev s) t := by
  unfold gatherSpec
  split
  · rename_i spec
    refine .get_bind ?_
    extract_lets line g₁ finish
    have seen : g₁ = g.onLine prev line := rfl
    split
    · rename_i notStandard
      have foreign : (Spec.importSpec spec).isStandard modulePath = false := by
        simpa [Spec.isStandard] using notStandard
      refine .of (.leaves (.foreign foreign (fun _ => rfl) ?_ ?_ ?_ ?_))
      all_goals simp [seen]
    · rename_i notForeign
      have isStandard : (Spec.importSpec spec).isStandard modulePath = true := by
        simpa [Spec.isStandard] using notForeign
      split
      · rename_i inFirst
        obtain ⟨before, near, grown⟩ := inFirst_of_onLine inFirst
        rw [seen, grown]
        exact .of (.stays before isStandard near)
      · rename_i ended
        have far := far_of_onLine ended
        have ended' : g₁.inFirst = false := by simpa using ended
        dsimp only
        split
        · rename_i pinned
          have fixed : (Spec.importSpec spec).isMovable modulePath = false := by
            rcases Bool.or_eq_true_iff.mp pinned with named | commented
            · simp [Spec.isMovable, Spec.isNamed, named]
            · simp [Spec.isMovable, Spec.hasComment, commented]
          refine .of (.leaves ⟨fun before _ => far before, fun _ => ended', .kept fixed ?_ ?_ ?_ ?_⟩)
          all_goals simp [seen]
        · rename_i free
          have movable : (Spec.importSpec spec).isMovable modulePath := by
            simpa [Spec.isMovable, isStandard, Spec.isNamed, Spec.hasComment] using free
          have left : g.Leaves modulePath home t prev (.importSpec spec)
              { g₁ with
                standard := g₁.standard ++ [(Spec.importSpec spec).restamp home]
                moved := true } := by
            refine ⟨fun before _ => far before, fun _ => ended', .single movable ?_ ?_ rfl ?_⟩
            all_goals simp [seen]
          split
          · rename_i alone
            refine .of (.joins left ?_ ?_)
            · exact fun none inFirst => absurd (far inFirst).1 (by simp [none])
            · rintro p isPrev
              have before := (Bool.and_eq_true_iff.mp alone).1
              rw [Option.mem_def.mp isPrev, Option.all_some] at before
              exact of_decide_eq_true before
          · exact .of (.leaves left)
  · rename_i noImport
    have other : ¬s.IsImport := by
      rintro ⟨spec, rfl⟩
      exact noImport spec rfl
    have foreign : s.isStandard modulePath = false := by
      cases s with
      | importSpec spec => exact absurd rfl (noImport spec)
      | valueSpec | typeSpec => rfl
    exact .of (.leaves (.foreign foreign (fun isImport => absurd isImport other) rfl rfl rfl rfl))

end Imports

end GoLayout
