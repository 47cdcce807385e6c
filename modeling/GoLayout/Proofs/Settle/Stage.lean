import GoLayout.Proofs.Settle.Place
import GoLayout.Proofs.Tidy.StandardFirst

/-!
The declarations of a file while they are gathered, flattened, merged and separated. Their items
stay, one behind the other, and lines are broken beside them only.
-/

namespace GoLayout

open LineTable (Shifts)

variable {n : Nat} {O : Nat → Prop} {ok : Landmark → Prop} {items : List Span} {t : LineTable}

/-- A declaration that comes of `d`: it has the same items, and stands no earlier. -/
structure Decl.Stays (d d' : Decl) : Prop where
  items : d'.items = d.items
  pos : d.pos ≤ d'.pos
  places : d'.places ⊆ d.places

theorem Decl.Stays.refl (d : Decl) : d.Stays d := ⟨rfl, Nat.le_refl _, List.Subset.refl _⟩

theorem Decl.Ahead.of_stays {a a' b b' : Decl} (h : a.Ahead b) (left : a.Stays a')
    (right : b.Stays b') : a'.Ahead b' where
  places := fun p mem => Nat.le_trans (h.places p (left.places mem)) right.pos
  items := fun s mem => Nat.lt_of_lt_of_le (h.items s (left.items ▸ mem)) right.pos

/-- A line may be broken where a declaration ends. -/
theorem Decl.Stands.free_stop {d : Decl} (h : d.Stands O ok items) : Span.Free O items d.stop := by
  cases d with
  | func f => exact h.placed.1
  | gen d =>
    have placed : d.Placed (Span.Free O items) ok := h.placed
    change Span.Free O items d.stop
    unfold GenDecl.stop
    cases isRight : d.rparen with
    | some rparen => exact placed.close rparen isRight
    | none =>
      cases isLast : d.specs.getLast? with
      | none => exact placed.keyword
      | some s => exact (placed.specs s (List.mem_of_getLast? isLast)).2.2

/-! ### Gathering and flattening -/

/-- A line may be broken where a spec ends, unless the spec has lost its extent. -/
def Spec.EndsFree (Free : Nat → Prop) (s : Spec) : Prop :=
  s.pos ≤ s.stop ∧ (s.stop = s.pos ∨ Free s.stop)

theorem Spec.IsImport.endsFree_restamp {Free : Nat → Prop} {s : Spec} (h : s.IsImport) (pos : Nat) :
    (s.restamp pos).EndsFree Free := by
  have stop : (s.restamp pos).stop = (s.restamp pos).pos := by
    rw [h.stop_restamp, h.pos_restamp]
  exact ⟨Nat.le_of_eq stop.symm, .inl stop⟩

/-- A group of imports stands as before with its imports listed anew, each where one was before or
at the keyword. -/
theorem GenDecl.Placed.relist {d : GenDecl} {specs : List Spec}
    (placed : d.Placed (Span.Free O items) ok) (imports : d.kind = .imports)
    (listed : ∀ s ∈ specs, s.IsImport ∧ s.EndsFree (Span.Free O items) ∧
      (s.pos = d.kwPos.start ∨ s.pos ∈ d.specs.map Spec.pos)) :
    (Decl.gen { d with specs }).Stands O ok items ∧ (Decl.gen d).Stays (.gen { d with specs }) := by
  obtain ⟨⟨free, freeBefore⟩, ofSpecs⟩ := placed.imports imports
  have place : ∀ s ∈ specs, d.kwPos.start ≤ s.pos ∧ Span.Free O items s.pos ∧
      Span.Free O items (s.pos - 1) := by
    intro s mem
    rcases (listed s mem).2.2 with same | found
    · rw [same]
      exact ⟨Nat.le_refl _, free, freeBefore⟩
    · obtain ⟨r, inSpecs, same⟩ := List.mem_map.mp found
      obtain ⟨low, here, -⟩ := placed.specs r inSpecs
      rw [← same]
      exact ⟨low, here, (ofSpecs r inSpecs).2.2⟩
  have noItems : ∀ specs, (Decl.gen { d with specs }).items = [] := fun specs => if_pos imports
  refine ⟨⟨?_, placed.keyword, placed.close, fun s mem => ?_, fun _ => ?_, ?_⟩, ?_, Nat.le_refl _, ?_⟩
  · rw [noItems]
    exact List.nil_subset _
  · obtain ⟨-, ⟨-, stop⟩, -⟩ := listed s mem
    obtain ⟨low, here, -⟩ := place s mem
    refine ⟨low, here, ?_⟩
    rcases stop with same | stop
    · rw [same]
      exact here
    · exact stop
  · refine ⟨⟨free, freeBefore⟩, fun s mem => ?_⟩
    obtain ⟨isImport, ⟨wide, -⟩, -⟩ := listed s mem
    exact ⟨isImport, wide, (place s mem).2.2⟩
  · exact fun others => absurd imports others
  · rw [noItems]
    exact (noItems d.specs).symm
  · refine List.cons_subset.mpr ⟨List.mem_cons_self, fun p mem => ?_⟩
    obtain ⟨s, inSpecs, rfl⟩ := List.mem_map.mp mem
    rcases (listed s inSpecs).2.2 with same | found
    · rw [same]
      exact List.mem_cons_self
    · exact List.mem_cons_of_mem _ found

namespace Tidy

variable {opts : Options} {comments : List CommentGroup}

theorem gatherImports_stays {d : Decl} (cover : t.Over n) (h : d.Stands O ok items) :
    Gives (gatherImports opts d) t fun d' t' => t.Shifts n (d.pos - 1) (Span.Free O items) t' ∧
      d'.Stands O ok items ∧ d.Stays d' := by
  cases d with
  | func f => exact .pure ⟨.refl cover, h, .refl _⟩
  | gen d =>
    unfold gatherImports
    dsimp only
    split
    · rename_i isGroup
      have imports : d.kind = .imports := GenDecl.kind_of_isImportGroup isGroup
      have placed : d.Placed (Span.Free O items) ok := h.placed
      obtain ⟨-, ofSpecs⟩ := placed.imports imports
      refine .bind (Imports.gather_shifts (P := Span.Free O items)
        (Q := Spec.EndsFree (Span.Free O items)) cover
        (fun _ pos isImport _ => isImport.endsFree_restamp pos) fun s mem => ?_) ?_
      · obtain ⟨low, here, stop⟩ := placed.specs s mem
        obtain ⟨isImport, wide, before⟩ := ofSpecs s mem
        exact ⟨isImport, ⟨low, wide⟩, ⟨here, before⟩, wide, .inr stop⟩
      · rintro _ t' ⟨shifts, specs, rfl, listed⟩
        exact .pure ⟨shifts, placed.relist imports listed⟩
    · exact .pure ⟨.refl cover, h, .refl _⟩

theorem flatten_stays {d : Decl} (cover : t.Over n) (h : d.Stands O ok items) :
    Gives (Tidy.flatten comments d) t fun d' t' => t.Shifts n 0 (Span.Free O items) t' ∧
      d'.Stands O ok items ∧ d.Stays d' := by
  cases d with
  | func f => exact .pure ⟨.refl cover, h, .refl _⟩
  | gen d =>
    refine .bind ((GenDecl.flatten_loses cover).and GenDecl.flatten_gives) ?_
    rintro d' t' ⟨⟨loses, edges⟩, shape⟩
    have shifts : t.Shifts n 0 (Span.Free O items) t' := .of_loses loses fun _ _ => Nat.zero_le _
    refine .pure ⟨shifts, ?_⟩
    rcases shape with rfl | ⟨kwPos, rfl, -⟩
    · exact ⟨h, .refl _⟩
    · have placed : d.Placed (Span.Free O items) ok := h.placed
      have place : kwPos = d.kwPos ∨ ∃ spec, d.specs = [spec] ∧ kwPos = .point spec.pos := by
        rcases edges with ⟨same, -⟩ | ⟨spec, single, -, same | same, -⟩
        · exact .inl same
        · exact .inl same
        · exact .inr ⟨spec, single, same⟩
      rcases place with rfl | ⟨spec, single, rfl⟩
      · exact ⟨⟨h.own, placed.keyword, nofun, placed.specs, placed.imports, placed.others⟩, rfl,
          Nat.le_refl _, List.Subset.refl _⟩
      · have only : ∀ s ∈ d.specs, s = spec := by simp [single]
        have found : spec ∈ d.specs := by simp [single]
        obtain ⟨low, here, -⟩ := placed.specs spec found
        refine ⟨⟨h.own, here, nofun, fun s mem => ?_, fun imports => ?_, placed.others⟩, rfl, low, ?_⟩
        · rw [only s mem]
          exact ⟨Nat.le_refl _, (placed.specs spec found).2⟩
        · obtain ⟨-, ofSpecs⟩ := placed.imports imports
          exact ⟨⟨here, (ofSpecs spec found).2.2⟩, ofSpecs⟩
        · refine List.cons_subset.mpr ⟨List.mem_cons_of_mem _ (List.mem_map_of_mem found), ?_⟩
          exact List.subset_cons_self _ _

end Tidy

/-! ### Merging -/

namespace Groups

variable {comments : List CommentGroup} {lines : LineTable}

theorem Unclosed.absorb_stands {u : Unclosed} {d : GenDecl}
    (ends : ∀ g ∈ comments, ∀ c ∈ g.toList, O c.span.stop) (admitted : u.admits lines d)
    (ofHead : (Decl.gen u.head).Stands O ok items) (h : (Decl.gen d).Stands O ok items)
    (ahead : (Decl.gen u.head).Ahead (.gen d)) :
    (Decl.gen (u.absorb comments lines d).head).Stands O ok items ∧
      (Decl.gen (u.absorb comments lines d).head).items =
        (Decl.gen u.head).items ++ (Decl.gen d).items := by
  obtain ⟨-, same, -⟩ := admits_iff.mp admitted
  have head : u.head.Placed (Span.Free O items) ok := ofHead.placed
  have next : d.Placed (Span.Free O items) ok := h.placed
  have below : u.head.kwPos.start ≤ d.kwPos.start := ahead.places _ List.mem_cons_self
  have both : (Decl.gen (u.absorb comments lines d).head).items =
      (Decl.gen u.head).items ++ (Decl.gen d).items := by
    dsimp only [Decl.items, absorb]
    rw [same]
    split
    · rfl
    · exact List.map_append
  refine ⟨⟨?_, head.keyword, fun s mem => ?_, ?_, fun imports => ?_, fun others => ?_⟩, both⟩
  · rw [both]
    exact List.append_subset.mpr ⟨ofHead.own, h.own⟩
  · dsimp only [absorb] at mem
    split at mem
    · rename_i c found
      cases mem
      obtain ⟨g, first, inGroup⟩ := Option.bind_eq_some_iff.mp found
      have isComment := List.dropWhile_subset _ (List.mem_of_mem_head? first)
      exact fun _ => ends g isComment c (List.mem_of_find?_eq_some inGroup)
    · exact head.close s mem
  · refine List.forall_mem_append.mpr ⟨head.specs, fun s mem => ?_⟩
    obtain ⟨low, free⟩ := next.specs s mem
    exact ⟨Nat.le_trans below low, free⟩
  · have imports : u.head.kind = .imports := imports
    obtain ⟨keyword, ofSpecs⟩ := head.imports imports
    exact ⟨keyword, List.forall_mem_append.mpr ⟨ofSpecs, (next.imports (same.trans imports)).2⟩⟩
  · have others : u.head.kind ≠ .imports := others
    have others' : d.kind ≠ .imports := same ▸ others
    obtain ⟨inOrder, apart⟩ := head.others others
    obtain ⟨inOrder', apart'⟩ := next.others others'
    refine ⟨List.forall_mem_append.mpr ⟨inOrder, inOrder'⟩,
      List.pairwise_append.mpr ⟨apart, apart', fun a inHead b inNext => ?_⟩⟩
    have own : a.extent ∈ (Decl.gen u.head).items := by
      dsimp only [Decl.items]
      rw [if_neg others]
      exact List.mem_map_of_mem inHead
    have before : a.stop < d.kwPos.start := ahead.items _ own
    exact Nat.le_trans (Nat.le_of_lt before) (next.specs b inNext).1

/-- What is ahead of both stays ahead, and so does what comes of both. -/
theorem Unclosed.absorb_ahead {u : Unclosed} {d : GenDecl} {b : Decl}
    (both : (Decl.gen (u.absorb comments lines d).head).items =
      (Decl.gen u.head).items ++ (Decl.gen d).items)
    (ofHead : (Decl.gen u.head).Ahead b) (h : (Decl.gen d).Ahead b) :
    (Decl.gen (u.absorb comments lines d).head).Ahead b := by
  refine ⟨?_, ?_⟩
  · obtain ⟨keyword, ofSpecs⟩ := List.forall_mem_cons.mp ofHead.places
    refine List.forall_mem_cons.mpr ⟨keyword, ?_⟩
    change ∀ p ∈ (u.head.specs ++ d.specs).map Spec.pos, _
    rw [List.map_append]
    exact List.forall_mem_append.mpr ⟨ofSpecs, (List.forall_mem_cons.mp h.places).2⟩
  · rw [both]
    exact List.forall_mem_append.mpr ⟨ofHead.items, h.items⟩

/-- Groups stand among all items as the declarations do, one ahead of the other. -/
theorem mergeFrom_stands {u : Option Unclosed} {ds : List Decl}
    (ends : ∀ g ∈ comments, ∀ c ∈ g.toList, O c.span.stop)
    (ofOpen : ∀ x ∈ u, (Decl.gen x.head).Stands O ok items ∧ ∀ d ∈ ds, (Decl.gen x.head).Ahead d)
    (h : ∀ d ∈ ds, d.Stands O ok items) (ahead : ds.Pairwise Decl.Ahead) :
    (∀ m ∈ mergeFrom comments lines u ds, m.decl.Stands O ok items) ∧
      (mergeFrom comments lines u ds).Pairwise (fun m m' => m.decl.Ahead m'.decl) ∧
      ∀ a : Decl, (∀ x ∈ u, a.Ahead (.gen x.head)) → (∀ d ∈ ds, a.Ahead d) →
        ∀ m ∈ mergeFrom comments lines u ds, a.Ahead m.decl := by
  fun_induction mergeFrom comments lines u ds with
  | case1 u =>
    cases u with
    | none => exact ⟨List.forall_mem_nil _, .nil, fun _ _ _ => List.forall_mem_nil _⟩
    | some x =>
      exact ⟨List.forall_mem_singleton.mpr (ofOpen x rfl).1, List.pairwise_singleton _ _,
        fun a before _ => List.forall_mem_singleton.mpr (before x rfl)⟩
  | case2 u f rest ih =>
    obtain ⟨here, behind⟩ := List.forall_mem_cons.mp h
    obtain ⟨first, ahead⟩ := List.pairwise_cons.mp ahead
    have closed {p : Unclosed → Prop} : ∀ x ∈ (none : Option Unclosed), p x :=
      fun x mem => absurd mem (Option.not_mem_none x)
    obtain ⟨stand, apart, after⟩ := ih closed behind ahead
    have func : (∀ m ∈ Merged.mk (.func f) false :: mergeFrom comments lines none rest,
          m.decl.Stands O ok items) ∧
        (Merged.mk (.func f) false :: mergeFrom comments lines none rest).Pairwise
          (fun m m' => m.decl.Ahead m'.decl) :=
      ⟨List.forall_mem_cons.mpr ⟨here, stand⟩, .cons (after (.func f) closed first) apart⟩
    have later : ∀ a : Decl, (∀ d ∈ Decl.func f :: rest, a.Ahead d) →
        ∀ m ∈ Merged.mk (.func f) false :: mergeFrom comments lines none rest, a.Ahead m.decl :=
      fun a before => List.forall_mem_cons.mpr ⟨before _ List.mem_cons_self,
        after a closed fun d mem => before d (List.mem_cons_of_mem _ mem)⟩
    cases u with
    | none => exact ⟨func.1, func.2, fun a _ before => later a before⟩
    | some x =>
      obtain ⟨ofHead, before⟩ := ofOpen x rfl
      exact ⟨List.forall_mem_cons.mpr ⟨ofHead, func.1⟩, .cons (later _ before) func.2,
        fun a ofHead before => List.forall_mem_cons.mpr ⟨ofHead x rfl, later a before⟩⟩
  | case3 d rest ih =>
    obtain ⟨here, behind⟩ := List.forall_mem_cons.mp h
    obtain ⟨first, ahead⟩ := List.pairwise_cons.mp ahead
    obtain ⟨stand, apart, after⟩ := ih (fun _ same => Option.some.inj same ▸ ⟨here, first⟩) behind ahead
    refine ⟨stand, apart, fun a _ before => ?_⟩
    obtain ⟨before, later⟩ := List.forall_mem_cons.mp before
    exact after a (fun _ same => Option.some.inj same ▸ before) later
  | case4 u d rest admitted ih =>
    obtain ⟨here, behind⟩ := List.forall_mem_cons.mp h
    obtain ⟨first, ahead⟩ := List.pairwise_cons.mp ahead
    obtain ⟨ofHead, before⟩ := ofOpen u rfl
    obtain ⟨next, later⟩ := List.forall_mem_cons.mp before
    obtain ⟨grown, both⟩ := Unclosed.absorb_stands ends admitted ofHead here next
    obtain ⟨stand, apart, after⟩ := ih (fun _ same => Option.some.inj same ▸
      ⟨grown, fun d' mem => Unclosed.absorb_ahead both (later d' mem) (first d' mem)⟩) behind ahead
    refine ⟨stand, apart, fun a before later => ?_⟩
    exact after a (fun _ same => Option.some.inj same ▸ ⟨(before u rfl).places, (before u rfl).items⟩)
      (List.forall_mem_cons.mp later).2
  | case5 u d rest refused ih =>
    obtain ⟨here, behind⟩ := List.forall_mem_cons.mp h
    obtain ⟨first, ahead⟩ := List.pairwise_cons.mp ahead
    obtain ⟨ofHead, before⟩ := ofOpen u rfl
    obtain ⟨stand, apart, after⟩ := ih (fun _ same => Option.some.inj same ▸ ⟨here, first⟩) behind ahead
    refine ⟨List.forall_mem_cons.mpr ⟨ofHead, stand⟩, .cons ?_ apart, fun a ofHead before => ?_⟩
    · obtain ⟨next, later⟩ := List.forall_mem_cons.mp before
      exact after _ (fun _ same => Option.some.inj same ▸ next) later
    · obtain ⟨next, later⟩ := List.forall_mem_cons.mp before
      exact List.forall_mem_cons.mpr ⟨ofHead u rfl,
        after a (fun _ same => Option.some.inj same ▸ next) later⟩

theorem merge_stands (lines : LineTable) {ds : List Decl}
    (ends : ∀ g ∈ comments, ∀ c ∈ g.toList, O c.span.stop) (h : ∀ d ∈ ds, d.Stands O ok items)
    (ahead : ds.Pairwise Decl.Ahead) :
    (∀ m ∈ merge comments lines ds, m.decl.Stands O ok items) ∧
      (merge comments lines ds).Pairwise fun m m' => m.decl.Ahead m'.decl := by
  obtain ⟨each, ahead, -⟩ := mergeFrom_stands ends (u := none) nofun h ahead
  exact ⟨each, ahead⟩

/-! ### Separating -/

theorem separateFrom_shifts {lastStop : Nat} {lastLong : Bool} {ds : List Decl} (cover : t.Over n)
    (free : lastLong → Span.Free O items lastStop) (h : ∀ d ∈ ds, Span.Free O items d.stop) :
    Gives (separateFrom comments lastStop lastLong ds) t fun _ t' =>
      t.Shifts n 0 (Span.Free O items) t' := by
  induction ds generalizing t lastStop lastLong with
  | nil => exact .pure (.refl cover)
  | cons d rest ih =>
    obtain ⟨here, behind⟩ := List.forall_mem_cons.mp h
    refine .get_bind ?_
    extract_lets pos long
    split
    · rename_i apart
      have wasLong : lastLong := (Bool.and_eq_true_iff.mp (Bool.and_eq_true_iff.mp apart).1).2
      refine .bind (LineTable.insertBreak_shifts cover (free wasLong) (Nat.zero_le _)) ?_
      intro _ t₁ shifts
      exact (ih shifts.cover (fun _ => here) behind).mono fun _ _ shifts' => shifts.trans shifts'
    · exact ih cover (fun _ => here) behind

end Groups

end GoLayout
