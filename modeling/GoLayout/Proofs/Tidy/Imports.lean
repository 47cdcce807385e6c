import GoLayout.Proofs.Tidy.Nodes
import GoLayout.Proofs.Tidy.Shelving
import Mathlib.Data.List.Basic
import Mathlib.Data.List.Count

/-!
Gathering the imports of the standard library. No import is lost and none is added: the imports of
a group are moved, each run of them is sorted, and only repetitions are dropped. The line that goes
with a moved import is never the first one, so it can be joined with the line above it.
-/

namespace GoLayout

variable {n : Nat}

/-- The second list has the members of the first, and none of them more often. -/
def Thins {α : Type} [BEq α] (before after : List α) : Prop :=
  ∀ a, (a ∈ after ↔ a ∈ before) ∧ after.count a ≤ before.count a

namespace Thins

variable {α : Type} [BEq α] {l l' l'' : List α}

theorem refl (l : List α) : Thins l l := fun _ => ⟨.rfl, Nat.le_refl _⟩

theorem trans (first : Thins l l') (second : Thins l' l'') : Thins l l'' := fun a =>
  ⟨(second a).1.trans (first a).1, Nat.le_trans (second a).2 (first a).2⟩

theorem of_perm (h : l'.Perm l) : Thins l l' := fun a => ⟨h.mem_iff, Nat.le_of_eq (h.count_eq a)⟩

theorem append {r r' : List α} (left : Thins l l') (right : Thins r r') :
    Thins (l ++ r) (l' ++ r') := by
  intro a
  rw [List.mem_append, List.mem_append, (left a).1, (right a).1, List.count_append,
    List.count_append]
  exact ⟨.rfl, Nat.add_le_add (left a).2 (right a).2⟩

theorem map {β : Type} [LawfulBEq α] [BEq β] [LawfulBEq β] {f : α → β}
    (injective : Function.Injective f) (surjective : Function.Surjective f) (h : Thins l l') :
    Thins (l.map f) (l'.map f) := by
  intro b
  obtain ⟨a, rfl⟩ := surjective b
  rw [List.mem_map_of_injective injective, List.mem_map_of_injective injective,
    List.count_map_of_injective _ f injective, List.count_map_of_injective _ f injective]
  exact h a

end Thins

/-! ### Sorting -/

section Sorting

variable {α : Type} {le : α → α → Bool}

theorem insertBy_perm (a : α) (l : List α) : (insertBy le a l).Perm (a :: l) := by
  induction l with
  | nil => exact .refl _
  | cons b rest ih =>
    unfold insertBy
    split
    · exact .refl _
    · exact (ih.cons b).trans (.swap a b rest)

theorem sortBy_perm (l : List α) : (sortBy le l).Perm l := by
  induction l with
  | nil => exact .refl _
  | cons a rest ih => exact (insertBy_perm a _).trans (ih.cons a)

end Sorting

theorem Spec.isImport_iff {s : Spec} : s.IsImport ↔ s.import?.isSome := by
  cases s <;> simp [IsImport, import?]

theorem Spec.IsImport.restamp {s : Spec} (h : s.IsImport) (pos : Nat) : (s.restamp pos).IsImport := by
  obtain ⟨i, rfl⟩ := h
  exact ⟨_, rfl⟩

/-- A spec in an import group: it lies within the text, and where `imports` holds, it is an
import. -/
structure Spec.Fits (n : Nat) (imports : Prop) (s : Spec) : Prop where
  everywhere : s.Everywhere (Span.Within n)
  isImport : imports → s.IsImport

theorem Spec.Fits.restamp {imports : Prop} {s : Spec} {pos : Nat} (h : s.Fits n imports)
    (within : pos < n) : (s.restamp pos).Fits n imports :=
  ⟨s.everywhere_restamp (Span.within_point within), fun holds => (h.isImport holds).restamp pos⟩

namespace Imports

theorem sortKey_restamp (s : Spec) (pos : Nat) : sortKey (s.restamp pos) = sortKey s := by
  cases s with
  | importSpec spec =>
    obtain ⟨_, name, _, _⟩ := spec
    rcases name with - | - | -
    all_goals rfl
  | valueSpec => rfl
  | typeSpec => rfl

theorem dropRepeats_sublist (specs : List Spec) : (dropRepeats specs).Sublist specs := by
  induction specs with
  | nil => exact .refl _
  | cons s rest ih =>
    unfold dropRepeats
    split
    · rename_i t more dropped
      rw [dropped] at ih
      split
      · exact ((List.sublist_cons_self t more).trans ih).cons_cons s
      · exact ih.cons_cons s
    · exact (List.nil_sublist rest).cons_cons s

theorem mem_dropRepeats {specs : List Spec} :
    ∀ k ∈ specs.map sortKey, k ∈ (dropRepeats specs).map sortKey := by
  induction specs with
  | nil => simp
  | cons s rest ih =>
    unfold dropRepeats
    split
    · rename_i t more dropped
      rw [dropped] at ih
      split
      · rename_i same
        rw [List.map_cons, List.map_cons, eq_of_beq same]
        simpa using ih
      · exact List.cons_subset_cons _ ih
    · rename_i dropped
      rw [dropped] at ih
      exact List.cons_subset_cons _ ih

theorem dropRepeats_thins (specs : List Spec) :
    Thins (specs.map sortKey) ((dropRepeats specs).map sortKey) := by
  intro k
  have sub := (dropRepeats_sublist specs).map sortKey
  exact ⟨⟨fun mem => sub.subset mem, mem_dropRepeats k⟩, sub.count_le k⟩

theorem sortKey_assign {specs : List Spec} {slots : List Nat} (enough : specs.length ≤ slots.length) :
    (assign specs slots).map sortKey = specs.map sortKey := by
  fun_induction assign specs slots with
  | case1 s specs slot slots ih =>
    rw [List.map_cons, List.map_cons, ih (by simpa using enough)]
    congr 1
    split
    · rfl
    · exact sortKey_restamp s slot
  | case2 specs slots other =>
    cases specs with
    | nil => rfl
    | cons s specs =>
      cases slots with
      | nil => simp at enough
      | cons slot slots => exact (other s specs slot slots rfl rfl).elim

theorem assign_fits {imports : Prop} {specs : List Spec} {slots : List Nat}
    (fits : ∀ s ∈ specs, s.Fits n imports) (within : ∀ slot ∈ slots, slot < n) :
    ∀ s ∈ assign specs slots, s.Fits n imports := by
  fun_induction assign specs slots with
  | case1 s specs slot slots ih =>
    obtain ⟨here, behind⟩ := List.forall_mem_cons.mp fits
    obtain ⟨slotHere, slotsBehind⟩ := List.forall_mem_cons.mp within
    refine List.forall_mem_cons.mpr ⟨?_, ih behind slotsBehind⟩
    split
    · exact here
    · exact here.restamp slotHere
  | case2 => simp

theorem sortRun_thins (run : List Spec) :
    Thins (run.map sortKey) ((sortRun run).map sortKey) := by
  have enough : (dropRepeats (sortBy specLe run)).length ≤
      (sortBy (fun a b => decide (a ≤ b)) (run.map Spec.pos)).length := by
    rw [(sortBy_perm _).length_eq, List.length_map, ← (sortBy_perm run).length_eq]
    exact (dropRepeats_sublist _).length_le
  unfold sortRun
  rw [sortKey_assign enough]
  exact (Thins.of_perm ((sortBy_perm run).map sortKey)).trans (dropRepeats_thins _)

theorem flatten_runs (lines : LineTable) (specs : List Spec) : (runs lines specs).flatten = specs := by
  induction specs with
  | nil => rfl
  | cons s rest ih =>
    unfold runs
    split
    · rename_i next run more found
      rw [found] at ih
      split
      · exact congrArg (s :: ·) ih
      · exact congrArg (s :: ·) ih
    · exact congrArg (s :: ·) ih

theorem sortRuns_thins (lines : LineTable) (specs : List Spec) :
    Thins (specs.map sortKey) ((sortRuns lines specs).map sortKey) := by
  have each : ∀ rs : List (List Spec),
      Thins (rs.flatten.map sortKey) ((rs.flatMap sortRun).map sortKey) := by
    intro rs
    induction rs with
    | nil => exact .refl _
    | cons run rs ih =>
      rw [List.flatten_cons, List.flatMap_cons, List.map_append, List.map_append]
      exact (sortRun_thins run).append ih
  have all := each (runs lines specs)
  rwa [flatten_runs] at all

section Fits

variable {imports : Prop} (pos : 0 < n)

include pos

theorem sortRun_fits {run : List Spec} (fits : ∀ s ∈ run, s.Fits n imports) :
    ∀ s ∈ sortRun run, s.Fits n imports := by
  refine assign_fits ?_ ?_
  · intro s mem
    exact fits s ((sortBy_perm run).mem_iff.mp ((dropRepeats_sublist _).subset mem))
  · intro slot mem
    obtain ⟨s, found, rfl⟩ := List.mem_map.mp ((sortBy_perm _).mem_iff.mp mem)
    exact s.pos_lt pos (fits s found).everywhere

theorem sortRuns_fits {lines : LineTable} {specs : List Spec}
    (fits : ∀ s ∈ specs, s.Fits n imports) : ∀ s ∈ sortRuns lines specs, s.Fits n imports := by
  intro s mem
  obtain ⟨run, found, inRun⟩ := List.mem_flatMap.mp mem
  refine sortRun_fits pos (fun s' mem' => fits s' ?_) s inRun
  rw [← flatten_runs lines specs]
  exact List.mem_flatten.mpr ⟨run, found, mem'⟩

end Fits

/-! ### Gathering -/

end Imports

theorem GenDecl.kind_of_isImportGroup {d : GenDecl} (isGroup : d.isImportGroup) :
    d.kind = .imports := by
  simp only [isImportGroup, Bool.and_eq_true, beq_iff_eq] at isGroup
  exact isGroup.1

namespace Imports

/-- What has been sorted out of `seen` holds the same imports. -/
structure Gathering.Of (n : Nat) (imports : Prop) (seen : List Spec) (g : Gathering) : Prop where
  fits : ∀ s ∈ g.standard ++ g.other, s.Fits n imports
  keys : ((g.standard ++ g.other).map sortKey).Perm (seen.map sortKey)

namespace Gathering.Of

variable {imports : Prop} {modulePath : Option String} {home : Nat} {seen : List Spec}
  {g g' : Gathering} {s s' : Spec}

/-- One more spec is sorted out, with the key it was read with. -/
theorem grow (h : g.Of n imports seen) (fits : s'.Fits n imports) (same : sortKey s' = sortKey s)
    (grown : (g'.standard ++ g'.other).Perm ((g.standard ++ g.other) ++ [s'])) :
    g'.Of n imports (seen ++ [s]) := by
  refine ⟨?_, ?_⟩
  · intro x mem
    rcases List.mem_append.mp (grown.mem_iff.mp mem) with old | new
    · exact h.fits x old
    · exact List.mem_singleton.mp new ▸ fits
  · refine (grown.map sortKey).trans ?_
    simpa [same] using h.keys.append_right [sortKey s]

theorem toOther (h : g.Of n imports seen) (fits : s.Fits n imports)
    (standard : g'.standard = g.standard) (other : g'.other = g.other ++ [s]) :
    g'.Of n imports (seen ++ [s]) := by
  refine h.grow fits rfl (.of_eq ?_)
  rw [standard, other, List.append_assoc]

theorem toStandard (h : g.Of n imports seen) (fits : s'.Fits n imports)
    (same : sortKey s' = sortKey s) (standard : g'.standard = g.standard ++ [s'])
    (other : g'.other = g.other) : g'.Of n imports (seen ++ [s]) := by
  refine h.grow fits same ?_
  rw [standard, other, List.append_assoc, List.append_assoc]
  exact List.perm_append_comm.append_left g.standard

theorem shelve (h : g.Of n imports seen) (within : home < n) (fits : s.Fits n imports)
    (shelved : g.Shelves modulePath home [s] g') : g'.Of n imports (seen ++ [s]) := by
  rcases shelved.lists with ⟨standard, other⟩ | ⟨standard, other⟩
  · exact h.toStandard (fits.restamp within) (sortKey_restamp s home) standard other
  · exact h.toOther fits standard other

end Gathering.Of

theorem gatherSpec_safe {modulePath : Option String} {imports : Prop} {home : Nat}
    {prev : Option Spec} {next : Option Nat} {s : Spec} {g : Gathering} {seen : List Spec}
    (within : home < n) (first : prev = none → g.inFirst) (fits : s.Fits n imports)
    (h : g.Of n imports seen) :
    (gatherSpec modulePath home prev next s g).Safe n (Gathering.Of n imports (seen ++ [s])) := by
  refine fun t cover => gatherSpec_sorting.yields fun x sorting => ?_
  cases sorting with
  | stays => exact .pure ⟨h.toStandard fits rfl rfl rfl, cover⟩
  | leaves left => exact .pure ⟨h.shelve within fits left.shelved, cover⟩
  | joins left later alone =>
    -- The first spec is in the first run, so there is a spec on a line above this one.
    obtain ⟨p, isPrev⟩ := Option.ne_none_iff_exists'.mp fun none => later none (first none)
    have above : t.line p.stop < t.line s.pos := alone p isPrev
    have lines_pos := t.line_pos cover p.stop
    have line_le : t.line s.pos ≤ t.count := t.line_le_count _
    refine .bind (LineTable.mergeLine_yields cover (by omega) (by omega)) ?_
    rintro - t' ⟨cover', -⟩
    exact .pure ⟨h.shelve within fits left.shelved, cover'⟩

theorem gatherSpecs_safe {modulePath : Option String} {imports : Prop} {home : Nat}
    {close : Option Nat} {prev : Option Spec} {specs : List Spec} {g : Gathering} {seen : List Spec}
    (within : home < n) (first : prev = none → g.inFirst)
    (fits : ∀ s ∈ specs, s.Fits n imports) (h : g.Of n imports seen) :
    (gatherSpecs modulePath home close prev specs g).Safe n
      (Gathering.Of n imports (seen ++ specs)) := by
  induction specs generalizing prev g seen with
  | nil => exact .pure (by rwa [List.append_nil])
  | cons s rest ih =>
    obtain ⟨here, behind⟩ := List.forall_mem_cons.mp fits
    refine .bind (gatherSpec_safe within first here h) fun g' h' => ?_
    rw [List.append_cons]
    exact ih nofun behind h'

/-- Gathering succeeds and keeps the imports of a group, but for repetitions. -/
theorem gather_safe {modulePath : Option String} {imports : Prop} {d : GenDecl}
    (kw : d.kwPos.Within n) (fits : ∀ s ∈ d.specs, s.Fits n imports) :
    (gather modulePath d).Safe n fun d' => ∃ specs, d' = { d with specs } ∧
      (∀ s ∈ specs, s.Fits n imports) ∧ Thins (d.specs.map sortKey) (specs.map sortKey) := by
  have pos : 0 < n := Nat.zero_lt_of_lt kw.1
  refine .look_bind fun t => ?_
  have start : Gathering.Of n imports [] ⟨[], [], true, 0, t.line d.kwPos.start, false⟩ :=
    ⟨by simp, .refl _⟩
  refine .bind (gatherSpecs_safe kw.1 (fun _ => rfl) fits start) fun g h => ?_
  have finish : Relining.Safe n
      (do
        let lines ← get
        let specs := g.standard ++ g.other
        return { d with specs := if g.moved then sortRuns lines specs else specs })
      fun d' => ∃ specs, d' = { d with specs } ∧ (∀ s ∈ specs, s.Fits n imports) ∧
        Thins (d.specs.map sortKey) (specs.map sortKey) := by
    refine .look_bind fun lines => .pure ⟨_, rfl, ?_⟩
    have kept : Thins (d.specs.map sortKey) ((g.standard ++ g.other).map sortKey) := .of_perm h.keys
    split
    · exact ⟨sortRuns_fits pos h.fits, kept.trans (sortRuns_thins lines _)⟩
    · exact ⟨h.fits, kept⟩
  dsimp only
  split
  · rename_i first rest _ others
    have first_lt : first.pos < n := by
      refine first.pos_lt pos (h.fits first ?_).everywhere
      rw [others]
      exact List.mem_append_right _ List.mem_cons_self
    refine .look_bind fun t => ?_
    split
    · refine .bind (LineTable.insertBreak_safe (by omega)) fun _ _ => ?_
      exact .bind (LineTable.insertBreak_safe (by omega)) fun _ _ => finish
    · exact finish
  · exact finish

end Imports

end GoLayout
