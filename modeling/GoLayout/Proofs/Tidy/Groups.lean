import GoLayout.Proofs.Tidy.Content
import Mathlib.Data.List.Chain

/-!
Declarations merged into groups. Merging moves the bounds of declarations only: the parts of the
groups are the parts of the declarations, in the same order. Groups are not merged any further,
unless empty ones are dropped between them. A line is broken at the end of a declaration, which
lies within the text.
-/

namespace GoLayout

namespace Groups

variable {n : Nat} {comments : List CommentGroup} {lines : LineTable}

/-! ### Merging -/

theorem Unclosed.absorb_within {u : Unclosed} {d : GenDecl} (below : CommentGroup.Below n comments)
    (ofHead : u.head.Within n) (h : d.Within n) :
    (u.absorb comments lines d).head.Within n := by
  refine ⟨ofHead.kwPos, ?_, ?_⟩
  · refine Spec.everywhereAll_iff.mpr (List.forall_mem_append.mpr ⟨?_, ?_⟩)
    · exact Spec.everywhereAll_iff.mp ofHead.specs
    · exact Spec.everywhereAll_iff.mp h.specs
  · intro s mem
    simp only [absorb] at mem
    split at mem
    · rename_i c found
      cases mem
      exact below.inlineAt c found
    · exact ofHead.rparen s mem

/-- What holds of declarations and goes over to the group that takes one in holds of all groups. -/
theorem mergeFrom_forall {Q : Decl → Prop} {u : Option Unclosed} {ds : List Decl}
    (absorbs : ∀ (u : Unclosed) (d : GenDecl), Q (.gen u.head) → Q (.gen d) →
      Q (.gen (u.absorb comments lines d).head))
    (ofOpen : ∀ x ∈ u, Q (.gen x.head)) (h : ∀ d ∈ ds, Q d) :
    ∀ m ∈ mergeFrom comments lines u ds, Q m.decl := by
  have closed : ∀ u : Option Unclosed, (∀ x ∈ u, Q (.gen x.head)) →
      ∀ m ∈ (u.map Unclosed.close).toList, Q m.decl := by
    intro u ofOpen m mem
    cases u with
    | none => simp at mem
    | some x =>
      obtain rfl : m = x.close := by simpa using mem
      exact ofOpen x rfl
  -- The group at hand is carried along, as it is and as it grows.
  fun_induction mergeFrom comments lines u ds with
  | case1 u => exact closed u ofOpen
  | case2 u f rest ih =>
    obtain ⟨here, behind⟩ := List.forall_mem_cons.mp h
    refine List.forall_mem_append.mpr ⟨closed u ofOpen, List.forall_mem_cons.mpr ⟨here, ?_⟩⟩
    exact ih nofun behind
  | case3 d rest ih =>
    obtain ⟨here, behind⟩ := List.forall_mem_cons.mp h
    refine ih ?_ behind
    rintro _ ⟨⟩
    exact here
  | case4 u d rest admitted ih =>
    obtain ⟨here, behind⟩ := List.forall_mem_cons.mp h
    refine ih ?_ behind
    rintro _ ⟨⟩
    exact absorbs u d (ofOpen u rfl) here
  | case5 u d rest refused ih =>
    obtain ⟨here, behind⟩ := List.forall_mem_cons.mp h
    refine List.forall_mem_cons.mpr ⟨ofOpen u rfl, ih ?_ behind⟩
    rintro _ ⟨⟩
    exact here

theorem merge_within {ds : List Decl} (below : CommentGroup.Below n comments)
    (h : ∀ d ∈ ds, d.Within n) : ∀ m ∈ merge comments lines ds, m.decl.Within n :=
  mergeFrom_forall (fun _ _ => Unclosed.absorb_within below) nofun h

/-- A group of declarations that declare something declares something. -/
theorem merge_nonempty {ds : List Decl} (h : ∀ d ∈ ds, d.isEmpty = false) :
    ∀ m ∈ merge comments lines ds, m.decl.isEmpty = false := by
  refine mergeFrom_forall ?_ nofun h
  intro u d ofHead _
  simp only [Decl.isEmpty, List.isEmpty_eq_false_iff] at ofHead
  simp [Decl.isEmpty, Unclosed.absorb, ofHead]

theorem parts_absorb {u : Unclosed} {d : GenDecl} (admitted : u.admits lines d) :
    (Decl.gen (u.absorb comments lines d).head).parts =
      (Decl.gen u.head).parts ++ (Decl.gen d).parts := by
  have same : d.kind = u.head.kind := by
    simp only [Unclosed.admits, Bool.and_eq_true, beq_iff_eq] at admitted
    exact admitted.1.1.1.2
  simp [Decl.parts, Unclosed.absorb, same]

theorem parts_mergeFrom {u : Option Unclosed} {ds : List Decl} :
    (mergeFrom comments lines u ds).flatMap (·.decl.parts) =
      u.toList.flatMap (fun x => (Decl.gen x.head).parts) ++ ds.flatMap Decl.parts := by
  fun_induction mergeFrom comments lines u ds with
  | case1 u => cases u <;> simp [Unclosed.close]
  | case2 u f rest ih => cases u <;> simp [Unclosed.close, ih]
  | case3 d rest ih =>
    rw [ih]
    simp [Unclosed.ofDecl]
  | case4 u d rest admitted ih => simp [ih, parts_absorb admitted]
  | case5 u d rest refused ih =>
    rw [List.flatMap_cons, ih]
    simp [Unclosed.close, Unclosed.ofDecl]

theorem parts_of_isEmpty {d : Decl} (empty : d.isEmpty) : d.parts = [] := by
  cases d with
  | gen d => simpa [Decl.isEmpty, Decl.parts] using empty
  | func f => simp [Decl.isEmpty] at empty

/-- The groups that are left have the parts of the declarations. -/
theorem parts_merge (ds : List Decl) :
    (((merge comments lines ds).filter (!·.decl.isEmpty)).map (·.decl)).flatMap Decl.parts =
      ds.flatMap Decl.parts := by
  have dropped : ∀ ms : List Merged,
      (ms.filter (!·.decl.isEmpty)).flatMap (·.decl.parts) = ms.flatMap (·.decl.parts) := by
    intro ms
    induction ms with
    | nil => rfl
    | cons m ms ih =>
      cases empty : m.decl.isEmpty with
      | true => simp [empty, parts_of_isEmpty empty, ih]
      | false => simp [empty, ih]
  rw [List.flatMap_map, dropped, merge, parts_mergeFrom]
  rfl

/-! ### Merging again -/

/-- Neighbours that are not merged. -/
def Apart (lines : LineTable) : Decl → Decl → Prop
  | .gen d, .gen e => ¬ (Unclosed.ofDecl d).admits lines e
  | _, _ => True

/-- Where no neighbours are to be merged, declarations are left as they are. -/
theorem mergeFrom_of_apart {u : Option GenDecl} {ds : List Decl}
    (apart : ((u.map Decl.gen).toList ++ ds).IsChain (Apart lines)) :
    (mergeFrom comments lines (u.map .ofDecl) ds).map (·.decl) = (u.map Decl.gen).toList ++ ds := by
  induction ds generalizing u with
  | nil => cases u <;> rfl
  | cons d rest ih =>
    cases d with
    | func f =>
      have behind := ih (u := none) apart.right_of_append.tail
      cases u with
      | none => simpa [mergeFrom] using behind
      | some e => simpa [mergeFrom, Unclosed.close, Unclosed.ofDecl] using behind
    | gen d =>
      cases u with
      | none => exact ih (u := some d) apart
      | some e =>
        have refused : ¬ (Unclosed.ofDecl e).admits lines d := (List.isChain_cons_cons.mp apart).1
        have behind := ih (u := some d) apart.tail
        simp only [Option.map_some] at behind ⊢
        rw [mergeFrom, if_neg refused, List.map_cons, behind]
        rfl

/-- What decides whether a declaration is merged with its neighbours. -/
structure Alike (d e : GenDecl) : Prop where
  kind : e.kind = d.kind
  lparen : e.lparen = d.lparen
  kwPos : e.kwPos = d.kwPos
  importsC : e.importsC = d.importsC

theorem Alike.trans {d e f : GenDecl} (first : Alike d e) (second : Alike e f) : Alike d f :=
  ⟨second.kind.trans first.kind, second.lparen.trans first.lparen,
    second.kwPos.trans first.kwPos, second.importsC.trans first.importsC⟩

theorem Unclosed.admits_iff {u : Unclosed} {d : GenDecl} : u.admits lines d ↔
    u.head.isMergeable ∧ d.kind = u.head.kind ∧ d.lparen = none ∧ d.importsC = false ∧
      lines.line d.kwPos.start ≤ lines.line u.lastPos + 1 := by
  simp [admits, and_assoc]

theorem Unclosed.alike_absorb {u : Unclosed} {d : GenDecl} (admitted : u.admits lines d) :
    Alike u.head (u.absorb comments lines d).head := by
  obtain ⟨mergeable, same, -, noC, -⟩ := admits_iff.mp admitted
  have noC' : u.head.importsC = false := by
    simp only [GenDecl.isMergeable, Bool.and_eq_true, Bool.not_eq_true'] at mergeable
    exact mergeable.2
  refine ⟨rfl, rfl, rfl, ?_⟩
  rw [noC']
  simp only [GenDecl.importsC, same] at noC noC'
  simp only [GenDecl.importsC, absorb, List.any_append, Bool.and_or_distrib_left, noC, noC',
    Bool.or_false]

/-- No two neighbours of merged groups are to be merged: one that came too late for a group comes
too late for its first declaration. -/
theorem chain_mergeFrom {u : Option Unclosed} {ds : List Decl}
    (ordered : ds.Pairwise fun a b => lines.line a.pos ≤ lines.line b.pos)
    (ofOpen : ∀ x ∈ u, lines.line x.head.pos ≤ lines.line x.lastPos ∧
      ∀ d ∈ ds, lines.line x.head.pos ≤ lines.line d.pos) :
    ((mergeFrom comments lines u ds).map (·.decl)).IsChain (Apart lines) ∧
      ∀ x ∈ u, ∃ d, ((mergeFrom comments lines u ds).map (·.decl)).head? = some (.gen d) ∧
        Alike x.head d := by
  fun_induction mergeFrom comments lines u ds with
  | case1 u =>
    cases u with
    | none => simp
    | some x => simpa [Unclosed.close] using ⟨rfl, rfl, rfl, rfl⟩
  | case2 u f rest ih =>
    obtain ⟨chain, -⟩ := ih ordered.tail nofun
    have last : ((⟨.func f, false⟩ :: mergeFrom comments lines none rest).map (·.decl)).IsChain
        (Apart lines) := chain.cons fun _ _ => trivial
    cases u with
    | none => exact ⟨last, nofun⟩
    | some x =>
      refine ⟨last.cons_cons trivial, ?_⟩
      rintro _ ⟨⟩
      exact ⟨x.head, rfl, rfl, rfl, rfl, rfl⟩
  | case3 d rest ih =>
    refine ⟨(ih ordered.tail ?_).1, nofun⟩
    rintro _ ⟨⟩
    exact ⟨Nat.le_refl _, (List.pairwise_cons.mp ordered).1⟩
  | case4 u d rest admitted ih =>
    obtain ⟨-, before⟩ := ofOpen u rfl
    obtain ⟨here, behind⟩ := List.forall_mem_cons.mp before
    obtain ⟨chain, front⟩ := ih ordered.tail (by rintro _ ⟨⟩; exact ⟨here, behind⟩)
    refine ⟨chain, ?_⟩
    rintro _ ⟨⟩
    obtain ⟨e, first, alike⟩ := front _ rfl
    exact ⟨e, first, (Unclosed.alike_absorb admitted).trans alike⟩
  | case5 u d rest refused ih =>
    obtain ⟨led, -⟩ := ofOpen u rfl
    obtain ⟨chain, front⟩ := ih ordered.tail
      (by rintro _ ⟨⟩; exact ⟨Nat.le_refl _, (List.pairwise_cons.mp ordered).1⟩)
    obtain ⟨e, first, alike⟩ := front _ rfl
    constructor
    · refine chain.cons ?_
      rw [first]
      rintro _ ⟨⟩ admitted
      obtain ⟨mergeable, kind, lparen, noC, near⟩ := Unclosed.admits_iff.mp admitted
      refine refused (Unclosed.admits_iff.mpr ⟨mergeable, ?_, ?_, ?_, ?_⟩)
      · exact alike.kind.symm.trans kind
      · exact alike.lparen.symm.trans lparen
      · exact alike.importsC.symm.trans noC
      · rw [alike.kwPos] at near
        change lines.line d.kwPos.start ≤ lines.line u.head.kwPos.start + 1 at near
        change lines.line u.head.kwPos.start ≤ _ at led
        omega
    · rintro _ ⟨⟩
      exact ⟨u.head, rfl, rfl, rfl, rfl, rfl⟩

/-- Merging is settled by merging once, if every declaration declares something. Groups that are
dropped afterwards for being empty are what may bring together neighbours that are merged only the
next time. -/
theorem merge_again {ds : List Decl}
    (ordered : ds.Pairwise fun a b => lines.line a.pos ≤ lines.line b.pos)
    (nonempty : ∀ d ∈ ds, d.isEmpty = false) :
    let groups := ((merge comments lines ds).filter (!·.decl.isEmpty)).map (·.decl)
    ((merge comments lines groups).filter (!·.decl.isEmpty)).map (·.decl) = groups := by
  have none_dropped : ∀ ds : List Decl, (∀ d ∈ ds, d.isEmpty = false) →
      (merge comments lines ds).filter (!·.decl.isEmpty) = merge comments lines ds := by
    intro ds nonempty
    refine List.filter_eq_self.mpr fun m mem => ?_
    simp [merge_nonempty nonempty m mem]
  have chain : ((merge comments lines ds).map (·.decl)).IsChain (Apart lines) :=
    (chain_mergeFrom (u := none) ordered nofun).1
  have groups_nonempty : ∀ d ∈ (merge comments lines ds).map (·.decl), d.isEmpty = false :=
    List.forall_mem_map.mpr (merge_nonempty nonempty)
  dsimp only
  rw [none_dropped ds nonempty, none_dropped _ groups_nonempty]
  exact mergeFrom_of_apart (u := none) chain

/-! ### Separating -/

theorem separateFrom_safe {lastStop : Nat} {lastLong : Bool} {ds : List Decl}
    (within : lastStop ≤ n) (h : ∀ d ∈ ds, d.Within n) :
    (separateFrom comments lastStop lastLong ds).Safe n fun _ => True := by
  induction ds generalizing lastStop lastLong with
  | nil => exact .pure trivial
  | cons d rest ih =>
    obtain ⟨here, behind⟩ := List.forall_mem_cons.mp h
    refine .look_bind fun t => ?_
    dsimp only
    split
    · refine .bind (LineTable.insertBreak_safe within) fun _ _ => ?_
      exact ih here.stop_le behind
    · exact ih here.stop_le behind

end Groups

end GoLayout
