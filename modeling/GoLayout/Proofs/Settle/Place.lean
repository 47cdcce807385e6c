import GoLayout.Proofs.Order.Entry
import GoLayout.Proofs.Order.File
import GoLayout.Proofs.Settle.Gather
import GoLayout.Proofs.Settle.Visit

/-!
Where the declarations of a file stand. What is tidied of them are items, one behind the other:
functions, and the specs of declarations other than imports. Wherever declarations begin and end,
and wherever imports do, a line may be broken without breaking an item.
-/

namespace GoLayout

open Landmark (InOrder)

/-- The extents within which the nodes of a declaration stand. Imports have no nodes. -/
def Decl.items : Decl → List Span
  | .gen d => if d.kind = .imports then [] else d.specs.map Spec.extent
  | .func f => [⟨f.pos, f.stop⟩]

/-- Where a declaration begins, and where its specs do. -/
def Decl.places : Decl → List Nat
  | .gen d => d.kwPos.start :: d.specs.map Spec.pos
  | .func f => [f.pos]

/-- A line may be broken at an offset within one of the items only if `O` holds of it. -/
def Span.Free (O : Nat → Prop) (items : List Span) (x : Nat) : Prop := AnyInside items x → O x

/-- What is known of the places of a declaration. -/
structure GenDecl.Placed (Free : Nat → Prop) (ok : Landmark → Prop) (d : GenDecl) : Prop where
  keyword : Free d.kwPos.stop
  close : ∀ rparen ∈ d.rparen, Free rparen.stop
  specs : ∀ s ∈ d.specs, d.kwPos.start ≤ s.pos ∧ Free s.pos ∧ Free s.stop
  imports : d.kind = .imports → (Free d.kwPos.start ∧ Free (d.kwPos.start - 1)) ∧
    ∀ s ∈ d.specs, s.IsImport ∧ s.pos ≤ s.stop ∧ Free (s.pos - 1)
  others : d.kind ≠ .imports → (∀ s ∈ d.specs, InOrder ok s.stop s.pos s.landmarks) ∧
    d.specs.Pairwise fun a b => a.stop ≤ b.pos

/-- A declaration stands among all `items`, some of which are its own. -/
structure Decl.Stands (O : Nat → Prop) (ok : Landmark → Prop) (items : List Span) (d : Decl) :
    Prop where
  own : d.items ⊆ items
  placed : match d with
    | .gen d => d.Placed (Span.Free O items) ok
    | .func f => Span.Free O items f.stop ∧ InOrder ok f.stop f.pos f.landmarks

/-- All of `a` stands before `b`. -/
structure Decl.Ahead (a b : Decl) : Prop where
  places : ∀ p ∈ a.places, p ≤ b.pos
  items : ∀ s ∈ a.items, s.stop < b.pos

variable {O : Nat → Prop} {ok : Landmark → Prop} {lo hi : Nat}

/-! ### Extents of declarations -/

/-- The specs of a declaration stand one behind the other, and it ends where they or its parentheses
do. -/
theorem GenDecl.extent {d : GenDecl} (h : InOrder ok hi lo d.landmarks) :
    lo ≤ d.pos ∧ d.stop ≤ hi ∧ d.kwPos.start < d.kwPos.stop ∧
      Span.InRow d.stop d.kwPos.stop (d.specs.map Spec.extent) := by
  obtain ⟨low, high, inside⟩ := h.extent (d.begins h) (d.ends h).stops
  obtain ⟨mid, ⟨-, wide⟩, specs, mid_le, -⟩ := d.specs_inOrder inside
  exact ⟨low, high, wide, Spec.inRow (specs.widen (Nat.le_refl _) mid_le)⟩

/-- The byte before a declaration is before its extent, and its items and places are in its
extent. -/
theorem Decl.extent {d : Decl} (h : InOrder ok hi lo d.landmarks) :
    (lo ≤ d.pos - 1 ∧ d.pos ≤ d.stop ∧ d.stop ≤ hi) ∧ (∀ p ∈ d.places, p ≤ d.stop) ∧
      ∀ s ∈ d.items, d.pos ≤ s.start ∧ s.stop ≤ d.stop := by
  obtain ⟨-, -, before, own⟩ := h
  have before : lo ≤ d.pos - 1 := before
  cases d with
  | func f =>
    obtain ⟨-, high, inside⟩ := FuncDecl.extent own
    refine ⟨⟨before, inside.le, high⟩, ?_, ?_⟩
    · exact List.forall_mem_singleton.mpr inside.le
    · exact List.forall_mem_singleton.mpr ⟨Nat.le_refl _, Nat.le_refl _⟩
  | gen d =>
    obtain ⟨-, high, wide, row⟩ := GenDecl.extent own
    have wide : d.pos < d.kwPos.stop := wide
    have behind := row.le
    have between : ∀ s ∈ d.specs, d.kwPos.stop ≤ s.pos ∧ s.pos ≤ s.stop ∧ s.stop ≤ d.stop := by
      intro s mem
      obtain ⟨low, high⟩ := row.between _ (List.mem_map_of_mem mem)
      exact ⟨low, row.wide _ (List.mem_map_of_mem mem), high⟩
    refine ⟨⟨before, by change d.pos ≤ d.stop; omega, high⟩, ?_, ?_⟩
    · refine List.forall_mem_cons.mpr ⟨by change d.pos ≤ d.stop; omega, List.forall_mem_map.mpr ?_⟩
      intro s mem
      obtain ⟨-, le, high⟩ := between s mem
      exact Nat.le_trans le high
    · dsimp only [items]
      split
      · simp
      · refine List.forall_mem_map.mpr fun s mem => ?_
        obtain ⟨low, -, high⟩ := between s mem
        exact ⟨Nat.le_trans (Nat.le_of_lt wide) low, high⟩

/-! ### Declarations of a file -/

section Reading

variable {ds : List Decl}

/-- Declarations in order come one after the other. -/
theorem Decl.ahead_of_inOrder (first : 0 < lo) (h : InOrder ok hi lo (ds.flatMap Decl.landmarks)) :
    ds.Pairwise Decl.Ahead ∧ ∀ d ∈ ds, lo < d.pos := by
  induction ds generalizing lo with
  | nil => exact ⟨.nil, nofun⟩
  | cons d ds ih =>
    obtain ⟨mid, here, behind⟩ := Landmark.inOrder_append.mp h
    obtain ⟨⟨low, le, high⟩, places, items⟩ := Decl.extent here
    obtain ⟨ahead, later⟩ := ih (Nat.lt_of_lt_of_le first here.le) behind
    have pos : lo < d.pos := by omega
    refine ⟨.cons (fun d' mem => ?_) ahead, List.forall_mem_cons.mpr ⟨pos, fun d' mem => ?_⟩⟩
    · have below := later d' mem
      refine ⟨fun p found => ?_, fun s found => ?_⟩
      · have := places p found
        omega
      · have := (items s found).2
        omega
    · exact Nat.lt_of_le_of_lt here.le (later d' mem)

theorem Decl.inOrder_of_mem (h : InOrder ok hi lo (ds.flatMap Decl.landmarks)) :
    ∀ d ∈ ds, InOrder ok hi lo d.landmarks := fun _ mem =>
  h.sublist (List.sublist_flatten_of_mem (List.mem_map_of_mem mem))

/-- At the extent of a declaration and at the byte before it there are no items but its own. -/
theorem Decl.anyInside_items (h : InOrder ok hi lo (ds.flatMap Decl.landmarks)) :
    ∀ d ∈ ds, ∀ x, d.pos - 1 ≤ x → x ≤ d.stop → Span.AnyInside (ds.flatMap Decl.items) x →
      Span.AnyInside d.items x := by
  induction ds generalizing lo with
  | nil => simp
  | cons d ds ih =>
    obtain ⟨mid, here, behind⟩ := Landmark.inOrder_append.mp h
    obtain ⟨⟨-, -, high⟩, -, items⟩ := Decl.extent here
    refine List.forall_mem_cons.mpr ⟨fun x _ le within => ?_, fun d' mem x low le within => ?_⟩
    · refine (Span.anyInside_append.mp within).resolve_right ?_
      rintro ⟨s, found, within⟩
      obtain ⟨d', mem, own⟩ := List.mem_flatMap.mp found
      obtain ⟨⟨low, -⟩, -, items'⟩ := Decl.extent (Decl.inOrder_of_mem behind d' mem)
      have := (items' s own).1
      have := within.1
      omega
    · refine ih behind d' mem x low le ((Span.anyInside_append.mp within).resolve_left ?_)
      rintro ⟨s, own, within⟩
      obtain ⟨⟨low', -⟩, -⟩ := Decl.extent (Decl.inOrder_of_mem behind d' mem)
      have := (items s own).2
      have := within.2
      omega

/-- Every declaration of a file stands among the items of all. -/
theorem Decl.stands_of_inOrder (h : InOrder ok hi lo (ds.flatMap Decl.landmarks))
    (kinds : ∀ d, .gen d ∈ ds → d.WellKinded) :
    ∀ d ∈ ds, d.Stands O ok (ds.flatMap Decl.items) := by
  intro d mem
  refine ⟨fun s own => List.mem_flatMap.mpr ⟨d, mem, own⟩, ?_⟩
  have free : ∀ x, d.pos - 1 ≤ x → x ≤ d.stop → ¬ Span.AnyInside d.items x →
      Span.Free O (ds.flatMap Decl.items) x := fun x low high beside within =>
    absurd (Decl.anyInside_items h d mem x low high within) beside
  obtain ⟨-, -, before, own⟩ := Decl.inOrder_of_mem h d mem
  cases d with
  | func f =>
    obtain ⟨-, -, inside⟩ := FuncDecl.extent own
    refine ⟨free _ (Nat.le_trans (Nat.sub_le _ 1) inside.le) (Nat.le_refl _) ?_, inside⟩
    rintro ⟨s, mem, within⟩
    rw [List.mem_singleton.mp mem] at within
    exact Nat.lt_irrefl _ within.2
  | gen d =>
    obtain ⟨-, -, wide, row⟩ := GenDecl.extent own
    have le := row.le
    have free : ∀ x, d.kwPos.start - 1 ≤ x → x ≤ d.stop →
        (d.kind ≠ .imports → ¬ Span.AnyInside (d.specs.map Spec.extent) x) →
        Span.Free O (ds.flatMap Decl.items) x := by
      intro x low high beside
      refine free x low high ?_
      dsimp only [items]
      split
      · simp [Span.AnyInside]
      · rename_i other
        exact beside other
    have between : ∀ s ∈ d.specs, d.kwPos.stop ≤ s.pos ∧ s.pos ≤ s.stop ∧ s.stop ≤ d.stop := by
      intro s mem
      obtain ⟨low, high⟩ := row.between _ (List.mem_map_of_mem mem)
      exact ⟨low, row.wide _ (List.mem_map_of_mem mem), high⟩
    have front : ∀ x, x ≤ d.kwPos.stop → ¬ Span.AnyInside (d.specs.map Spec.extent) x := by
      rintro x high ⟨s, mem, within⟩
      have := (row.between s mem).1
      have := within.1
      omega
    refine ⟨?_, fun rparen isRight => ?_, fun s mem => ?_, fun imports => ?_, fun others => ?_⟩
    · exact free _ (by omega) le fun _ => front _ (Nat.le_refl _)
    · have stop : d.stop = rparen.stop := by
        rw [GenDecl.stop, Option.mem_def.mp isRight]
      refine free _ (by omega) (Nat.le_of_eq stop.symm) fun _ => ?_
      rintro ⟨s, mem, within⟩
      have := (row.between s mem).2
      have := within.2
      omega
    · obtain ⟨low, le, high⟩ := between s mem
      have inRow : s.extent ∈ d.specs.map Spec.extent := List.mem_map_of_mem mem
      refine ⟨by omega, free _ (by omega) (by omega) fun _ => ?_, free _ (by omega) high fun _ => ?_⟩
      · exact (row.beside_start_of_mem _ inRow).2.2
      · exact (row.beside_stop_of_mem _ inRow).2.2
    · refine ⟨⟨?_, ?_⟩, fun s inSpecs => ?_⟩
      · exact free _ (by omega) (by omega) fun other => absurd imports other
      · exact free _ (by omega) (by omega) fun other => absurd imports other
      · obtain ⟨low, le, high⟩ := between s inSpecs
        refine ⟨kinds d mem imports s inSpecs, le, ?_⟩
        exact free _ (by omega) (by omega) fun other => absurd imports other
    · obtain ⟨mid, -, specs, -⟩ := d.specs_inOrder own
      refine ⟨fun s mem => ?_, List.pairwise_map.mp row.pairwise⟩
      rw [Spec.landmarksAll_eq_flatMap] at specs
      exact (Spec.extent_inOrder
        (specs.sublist (List.sublist_flatten_of_mem (List.mem_map_of_mem mem)))).2.2

end Reading

end GoLayout
