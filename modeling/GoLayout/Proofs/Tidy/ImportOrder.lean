import GoLayout.Proofs.Tidy.Gathering
import Mathlib.Data.List.Chain
import Mathlib.Data.List.Perm.Subperm

/-!
The order of the imports of a gathered group. Where all imports that are not in the first run stand
behind the keyword, no import of another module comes before one of the standard library, but for
those that are not moved. So it is in a group as it was read. The imports that were put at its
keyword come first then, and none of another module is among them, so that a group stays as it is to
be when more imports are added to it and it is gathered anew.
-/

namespace GoLayout

/-- Whether an import is of the standard library and has no name. -/
def Spec.isPlain (modulePath : Option String) (s : Spec) : Bool :=
  s.isStandard modulePath && !s.isNamed

namespace Imports

variable {modulePath : Option String} {commented : List (String × String)} {home : Nat}
  {t t' : LineTable} {specs specs' first rest : List Spec}

/-! ### Paths and names -/

/-- The paths and names of some of the imports. -/
def keys (q : Spec → Bool) (specs : List Spec) : List (String × String) :=
  (specs.filter q).map sortKey

section Keys

variable {q q' : Spec → Bool}

theorem keys_append : keys q (first ++ rest) = keys q first ++ keys q rest := by
  simp [keys]

theorem keys_sublist (h : specs.Sublist specs') : (keys q specs).Sublist (keys q specs') :=
  (h.filter q).map sortKey

theorem keys_mono (stronger : ∀ s ∈ specs, q s → q' s) :
    (keys q specs).Sublist (keys q' specs) := by
  have both : specs.filter q = (specs.filter q').filter q := by
    rw [List.filter_filter]
    refine List.filter_congr fun s mem => ?_
    cases holds : q s with
    | true => rw [stronger s mem holds, Bool.and_self]
    | false => rfl
  rw [keys, both]
  exact List.filter_sublist.map sortKey

theorem count_keys (key : String × String) :
    (keys q specs).count key = specs.countP fun s => sortKey s == key && q s := by
  rw [keys, List.count, List.countP_map, List.countP_filter]
  rfl

/-- Sorting adds no keys of imports that are picked by what copies have of them. -/
theorem keys_sortRuns (copies : ∀ s pos, q (s.restamp pos) → q s) (lines : LineTable)
    (specs : List Spec) : (keys q (sortRuns lines specs)).Subperm (keys q specs) := by
  refine List.subperm_ext_iff.mpr fun key _ => ?_
  rw [count_keys, count_keys]
  refine countP_sortRuns (fun s pos holds => ?_) lines specs
  rw [sortKey_restamp, Bool.and_eq_true] at holds
  rw [holds.1, copies s pos holds.2, Bool.and_self]

end Keys

/-- Behind an import of another module, those of the standard library with no name have the paths of
imports with a comment, as many of them at most. -/
def StandardFirst (modulePath : Option String) (commented : List (String × String))
    (specs : List Spec) : Prop :=
  (keys (·.isPlain modulePath) (specs.dropWhile (·.isStandard modulePath))).Subperm commented

instance : Decidable (StandardFirst modulePath commented specs) :=
  inferInstanceAs (Decidable (List.Subperm _ _))

theorem StandardFirst.append (standard : ∀ s ∈ first, s.isStandard modulePath)
    (others : (keys (·.isPlain modulePath) rest).Subperm commented) :
    StandardFirst modulePath commented (first ++ rest) := by
  rw [StandardFirst, List.dropWhile_append_of_pos standard]
  exact (keys_sublist (List.dropWhile_sublist _)).subperm.trans others

theorem StandardFirst.of_length_le_one (short : specs.length ≤ 1) :
    StandardFirst modulePath commented specs := by
  have none : keys (·.isPlain modulePath) (specs.dropWhile (·.isStandard modulePath)) = [] := by
    match specs, short with
    | [], _ => rfl
    | [s], _ =>
      by_cases standard : s.isStandard modulePath <;> simp [keys, Spec.isPlain, standard]
  rw [StandardFirst, none]
  exact List.nil_subperm

/-- Imports as they are read, one behind the other and all behind a keyword at `home`. -/
structure Spread (home : Nat) (specs : List Spec) : Prop where
  behind : ∀ s ∈ specs, home + 2 ≤ s.pos
  apart : specs.Pairwise fun a b => a.pos + 2 ≤ b.pos
  forward : ∀ s ∈ specs, s.pos ≤ s.stop

/-- Imports behind a keyword at `home`. Those that were put at the keyword are of the standard
library and come first. -/
structure Homed (modulePath : Option String) (home : Nat) (specs : List Spec) : Prop where
  place : ∀ s ∈ specs, s.pos = home ∧ s.isStandard modulePath ∨ home + 2 ≤ s.pos
  first : specs.Pairwise fun a b => b.pos = home → a.pos = home

theorem Homed.of_behind (behind : ∀ s ∈ specs, home + 2 ≤ s.pos) : Homed modulePath home specs where
  place s mem := .inr (behind s mem)
  first := List.pairwise_of_forall_mem_list fun a _ b mem atHome => by
    have := behind b mem
    omega

theorem Homed.append (h : Homed modulePath home first) (behind : ∀ s ∈ rest, home + 2 ≤ s.pos) :
    Homed modulePath home (first ++ rest) where
  place := List.forall_mem_append.mpr ⟨h.place, fun s mem => .inr (behind s mem)⟩
  first := by
    refine List.pairwise_append.mpr ⟨h.first, (@of_behind modulePath _ _ behind).first, ?_⟩
    intro a _ b mem atHome
    have := behind b mem
    omega

/-- Imports at the keyword are all in the first run. -/
theorem Homed.rest_behind (h : Homed modulePath home (first ++ rest))
    (run : FirstRun modulePath t first rest) : ∀ s ∈ rest, home + 2 ≤ s.pos := by
  intro s mem
  rcases h.place s (List.mem_append_right _ mem) with ⟨atHome, standard⟩ | behind
  · exfalso
    cases rest with
    | nil => nomatch mem
    | cons r rest =>
      obtain ⟨-, ofRest, across⟩ := List.pairwise_append.mp h.first
      have first_home : r.pos = home := by
        rcases List.mem_cons.mp mem with rfl | later
        · exact atHome
        · exact (List.pairwise_cons.mp ofRest).1 s later atHome
      have isStandard : r.isStandard modulePath := by
        rcases h.place r (List.mem_append_right _ List.mem_cons_self) with ⟨-, isStandard⟩ | behind
        · exact isStandard
        · omega
      obtain ⟨l, isLast, far⟩ := run.ends r rfl isStandard
      have last_home := across l (List.mem_of_getLast? isLast) r List.mem_cons_self first_home
      rw [first_home, last_home] at far
      omega
  · exact behind

/-! ### What is gathered -/

theorem mem_movedTo {s : Spec} (mem : s ∈ movedTo modulePath home rest) :
    ∃ r ∈ rest, r.isMovable modulePath ∧ s = r.restamp home := by
  obtain ⟨r, found, rfl⟩ := List.mem_map.mp mem
  obtain ⟨inRest, movable⟩ := List.mem_filter.mp found
  exact ⟨r, inRest, movable, rfl⟩

theorem mem_unmoved {s : Spec} (mem : s ∈ unmoved modulePath rest) :
    s ∈ rest ∧ s.isMovable modulePath = false := by
  simpa using List.mem_filter.mp mem

theorem movedTo_eq_nil (none : ¬rest.any (·.isMovable modulePath)) :
    movedTo modulePath home rest = [] := by
  rw [movedTo, List.map_eq_nil_iff, List.filter_eq_nil_iff]
  simpa using none

theorem movedTo_ne_nil (some : rest.any (·.isMovable modulePath)) :
    movedTo modulePath home rest ≠ [] := by
  obtain ⟨r, mem, movable⟩ := List.any_eq_true.mp some
  exact List.ne_nil_of_mem (List.mem_map_of_mem (List.mem_filter.mpr ⟨mem, movable⟩))

theorem sortRuns_append {lines : LineTable} {as bs : List Spec}
    (cut : ∀ a ∈ as.getLast?, ∀ b ∈ bs.head?, lines.line a.stop + 1 < lines.line b.pos) :
    sortRuns lines (as ++ bs) = sortRuns lines as ++ sortRuns lines bs := by
  rw [sortRuns, runs_append cut, List.flatMap_append]
  rfl

namespace Gathered

variable (h : Gathered modulePath home t t' specs specs' first rest)

include h

theorem mem_rest {s : Spec} (mem : s ∈ rest) : s ∈ specs := h.parts ▸ List.mem_append_right _ mem

theorem mem_first {s : Spec} (mem : s ∈ first) : s ∈ specs := h.parts ▸ List.mem_append_left _ mem

/-- What holds of imports and of their copies holds of what is gathered. -/
theorem forall_mem {P : Spec → Prop} (copies : ∀ s pos, P s → P (s.restamp pos))
    (all : ∀ s ∈ specs, P s) : ∀ s ∈ specs', P s := by
  have listed : ∀ s ∈ first ++ movedTo modulePath home rest ++ unmoved modulePath rest, P s := by
    refine List.forall_mem_append.mpr ⟨List.forall_mem_append.mpr ⟨?_, ?_⟩, ?_⟩
    · exact fun s mem => all s (h.mem_first mem)
    · intro s mem
      obtain ⟨r, inRest, -, rfl⟩ := mem_movedTo mem
      exact copies r home (all r (h.mem_rest inRest))
    · exact fun s mem => all s (h.mem_rest (mem_unmoved mem).1)
  rw [h.result]
  split
  · exact sortRuns_forall copies listed
  · exact listed

theorem standard : ∀ s ∈ first ++ movedTo modulePath home rest, s.isStandard modulePath := by
  refine List.forall_mem_append.mpr ⟨h.run.standard, fun s mem => ?_⟩
  obtain ⟨r, -, movable, rfl⟩ := mem_movedTo mem
  simp only [Spec.isMovable, Bool.and_eq_true] at movable
  simpa using movable.1.1

/-- What is not moved of the standard library and has no name has a comment. -/
theorem others (known : (keys Spec.hasComment specs).Subperm commented) :
    (keys (·.isPlain modulePath) (unmoved modulePath rest)).Subperm commented := by
  have listed : (unmoved modulePath rest).Sublist specs :=
    List.filter_sublist.trans (h.parts ▸ List.sublist_append_right first rest)
  refine (keys_mono fun s mem plain => ?_).subperm.trans ((keys_sublist listed).subperm.trans known)
  have fixed := (mem_unmoved mem).2
  simp only [Spec.isPlain] at plain
  simpa [Spec.isMovable, plain] using fixed

/-- Gathering leaves no more imports with a comment. -/
theorem keys_hasComment :
    (keys Spec.hasComment specs').Subperm (keys Spec.hasComment specs) := by
  have moved : keys Spec.hasComment (movedTo modulePath home rest) = [] := by
    rw [keys, List.map_eq_nil_iff, List.filter_eq_nil_iff]
    intro s mem
    obtain ⟨r, -, -, rfl⟩ := mem_movedTo mem
    simp
  have listed : (keys Spec.hasComment
      (first ++ movedTo modulePath home rest ++ unmoved modulePath rest)).Subperm
      (keys Spec.hasComment specs) := by
    rw [keys_append, keys_append, moved, List.append_nil, ← keys_append, h.parts]
    exact (keys_sublist (List.filter_sublist.append_left first)).subperm
  rw [h.result]
  split
  · exact (keys_sortRuns (by simp) _ _).trans listed
  · exact listed

variable (imports : ∀ s ∈ specs, s.IsImport)

include imports

/-- Where imports are moved, a blank line keeps those of other modules apart. -/
theorem eq_append (moved : rest.any (·.isMovable modulePath))
    (behind : ∀ s ∈ rest, home + 2 ≤ s.pos) :
    specs' = sortRuns t' (first ++ movedTo modulePath home rest) ++
      sortRuns t' (unmoved modulePath rest) := by
  rw [h.result, if_pos moved]
  refine sortRuns_append fun a isLast b isFirst => ?_
  rw [List.getLast?_append_of_ne_nil _ (movedTo_ne_nil moved)] at isLast
  obtain ⟨r, inRest, -, rfl⟩ := mem_movedTo (List.mem_of_getLast? isLast)
  rw [(imports r (h.mem_rest inRest)).stop_restamp]
  exact h.gap moved b isFirst (behind b (mem_unmoved (List.mem_of_head? isFirst)).1)

theorem standardFirst (known : (keys Spec.hasComment specs).Subperm commented)
    (behind : ∀ s ∈ rest, home + 2 ≤ s.pos) : StandardFirst modulePath commented specs' := by
  by_cases moved : rest.any (·.isMovable modulePath)
  · rw [h.eq_append imports moved behind]
    refine .append (sortRuns_forall ?_ h.standard) ((keys_sortRuns ?_ _ _).trans (h.others known))
    · exact fun s pos standard => by simpa using standard
    · exact fun s pos plain => by simpa [Spec.isPlain] using plain
  · rw [h.result, if_neg moved]
    exact .append h.standard (h.others known)

/-- Imports stay in the places that they had, or go to the keyword. -/
theorem place_of_mem : ∀ s ∈ first ++ movedTo modulePath home rest ++ unmoved modulePath rest,
    s.IsImport ∧ (s.pos = home ∨ s.pos ∈ specs.map Spec.pos) := by
  refine List.forall_mem_append.mpr ⟨List.forall_mem_append.mpr ⟨?_, ?_⟩, ?_⟩
  · exact fun s mem => ⟨imports s (h.mem_first mem), .inr (List.mem_map_of_mem (h.mem_first mem))⟩
  · intro s mem
    obtain ⟨r, inRest, -, rfl⟩ := mem_movedTo mem
    have isImport := imports r (h.mem_rest inRest)
    exact ⟨isImport.restamp home, .inl (isImport.pos_restamp home)⟩
  · intro s mem
    have inRest := h.mem_rest (mem_unmoved mem).1
    exact ⟨imports s inRest, .inr (List.mem_map_of_mem inRest)⟩

theorem pos_mem : ∀ s ∈ specs', s.pos = home ∨ s.pos ∈ specs.map Spec.pos := by
  have place := h.place_of_mem imports
  rw [h.result]
  split
  · intro s mem
    obtain ⟨s', found, same⟩ := List.mem_map.mp
      (pos_mem_of_mem_sortRuns (fun s mem => (place s mem).1) s mem)
    exact same ▸ (place s' found).2
  · exact fun s mem => (place s mem).2

/-- The first run and what is moved are sorted as one run. -/
theorem runs_eq (moved : rest.any (·.isMovable modulePath)) (ordered : t'.Ordered)
    (spread : Spread home specs) :
    runs t' (first ++ movedTo modulePath home rest) = [first ++ movedTo modulePath home rest] := by
  have apart : ∀ a ∈ first, ∀ b ∈ rest, a.pos + 2 ≤ b.pos := by
    have apart := spread.apart
    rw [h.parts] at apart
    exact (List.pairwise_append.mp apart).2.2
  have at_home : ∀ s ∈ movedTo modulePath home rest, s.pos = home ∧ s.stop = home := by
    intro s mem
    obtain ⟨r, inRest, -, rfl⟩ := mem_movedTo mem
    have isImport := imports r (h.mem_rest inRest)
    exact ⟨isImport.pos_restamp home, isImport.stop_restamp home⟩
  have near : (first ++ movedTo modulePath home rest).IsChain fun a b =>
      t'.line b.pos ≤ t'.line a.stop + 1 := by
    refine List.isChain_append.mpr ⟨h.run.near.imp_of_mem_imp ?_, ?_, ?_⟩
    · intro a b memA memB near
      have near' : t'.line b.pos ≤ t'.line a.pos + 1 := by
        refine h.near a.pos b.pos (fun s isFirst => ?_) near
        exact apart b memB s (mem_unmoved (List.mem_of_head? isFirst)).1
      have within := ordered.line_mono (spread.forward a (h.mem_first memA))
      omega
    · refine (List.pairwise_of_forall_mem_list fun a memA b memB => ?_).isChain
      rw [(at_home b memB).1, (at_home a memA).2]
      omega
    · intro a isLast b isFirst
      rw [(at_home b (List.mem_of_head? isFirst)).1]
      have inSpecs := h.mem_first (List.mem_of_getLast? isLast)
      have behind := spread.behind a inSpecs
      have forward := spread.forward a inSpecs
      exact Nat.le_succ_of_le (ordered.line_mono (by omega))
  obtain ⟨s, more, listed⟩ := List.exists_cons_of_ne_nil
    (List.append_ne_nil_of_right_ne_nil first (@movedTo_ne_nil modulePath home rest moved))
  rw [listed] at near ⊢
  exact runs_of_near near

/-- The imports of a group as it was read, once they are gathered. -/
theorem homed (ordered : t'.Ordered) (spread : Spread home specs) :
    Homed modulePath home specs' := by
  have behind : ∀ pos ∈ specs.map Spec.pos, home + 2 ≤ pos := List.forall_mem_map.mpr spread.behind
  have unmoved_behind : ∀ s ∈ unmoved modulePath rest, home + 2 ≤ s.pos := fun s mem =>
    spread.behind s (h.mem_rest (mem_unmoved mem).1)
  by_cases moved : rest.any (·.isMovable modulePath)
  · obtain ⟨front, back⟩ := List.forall_mem_append.mp (h.place_of_mem imports)
    rw [h.eq_append imports moved fun s mem => spread.behind s (h.mem_rest mem)]
    refine .append ?_ fun s mem => ?_
    · rw [sortRuns, h.runs_eq imports moved ordered spread, List.flatMap_singleton]
      have place : ∀ s ∈ sortRun (first ++ movedTo modulePath home rest),
          s.pos = home ∨ home + 2 ≤ s.pos := by
        intro s mem
        obtain ⟨s', found, same⟩ := List.mem_map.mp
          (pos_mem_of_mem_sortRun (fun s mem => (front s mem).1) s mem)
        exact same ▸ (front s' found).2.imp_right (behind _)
      have standard := sortRun_forall (fun s pos standard => by simpa using standard) h.standard
      refine ⟨fun s mem => (place s mem).imp_left fun atHome => ⟨atHome, standard s mem⟩, ?_⟩
      -- The places are taken in order, the keyword first.
      refine (sortRun_ordered fun s mem => (front s mem).1).imp_of_mem ?_
      intro a b mem _ le atHome
      have := place a mem
      omega
    · obtain ⟨s', found, same⟩ := List.mem_map.mp
        (pos_mem_of_mem_sortRuns (fun s mem => (back s mem).1) s mem)
      exact same ▸ unmoved_behind s' found
  · rw [h.result, if_neg moved, movedTo_eq_nil moved, List.append_nil]
    refine .of_behind (List.forall_mem_append.mpr ⟨?_, unmoved_behind⟩)
    exact fun s mem => spread.behind s (h.mem_first mem)

end Gathered

end Imports

end GoLayout
