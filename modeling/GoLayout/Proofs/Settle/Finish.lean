import GoLayout.Proofs.Settle.Stage

/-!
The nodes of declarations, tidied one declaration after the other. What is settled for one lies
within its items, and those behind it change lines behind these only.
-/

namespace GoLayout

variable {n : Nat} {O : Nat → Prop} {items : List Span} {t t' : LineTable}

open LineTable (Agree Clean Shifts)
open Landmark (InOrder Clear)

theorem LineTable.Shifts.of_agree {Z : Nat → Prop} {lo : Nat} (cover : t'.Over n)
    (same : Agree (fun s => ¬ Z s) t t') (behind : ∀ s, Z s → lo ≤ s) : t.Shifts n lo Z t' where
  cover := cover
  added := fun s mem => or_iff_not_imp_right.mpr fun out => (same s out).mp mem
  kept := same.mono fun s below within => Nat.not_lt.mpr (behind s within) below

/-! ### Specs -/

/-- Specs that are in order, one behind the other. -/
theorem Spec.inOrder_all {ok : Landmark → Prop} {lo : Nat} {specs : List Spec}
    (low : ∀ s ∈ specs, lo ≤ s.pos) (each : ∀ s ∈ specs, InOrder ok s.stop s.pos s.landmarks)
    (apart : specs.Pairwise fun a b => a.stop ≤ b.pos) :
    ∃ hi, InOrder ok hi lo (Spec.landmarksAll specs) := by
  induction specs generalizing lo with
  | nil => exact ⟨lo, Nat.le_refl lo⟩
  | cons s rest ih =>
    obtain ⟨inside, each⟩ := List.forall_mem_cons.mp each
    obtain ⟨first, apart⟩ := List.pairwise_cons.mp apart
    obtain ⟨hi, behind⟩ := ih first each apart
    refine ⟨hi, Landmark.inOrder_append.mpr ⟨s.stop, ?_, behind⟩⟩
    exact inside.widen (low s List.mem_cons_self) (Nat.le_refl _)

section Settling

variable {k : Setting} {opts : Options}

open Tidy (Settles visitor Inside)

theorem Spec.like_importSpec (i : ImportSpec) : Spec.Like (.importSpec i) (.importSpec i) :=
  ⟨rfl, rfl, fun _ _ _ _ _ same => Spec.noConfusion same⟩

/-- Imports have no nodes. -/
theorem Spec.settle_imports {Z : Nat → Prop} {specs : List Spec}
    (imports : ∀ s ∈ specs, s.IsImport) :
    Settles n O Z (Spec.visitAll (visitor opts k.comments) specs) fun specs' t =>
      List.Forall₂ Spec.Like specs specs' ∧ AllTidy k t (Spec.nodesAll specs') := by
  induction specs with
  | nil => exact .pure fun _ _ => ⟨.nil, .nil⟩
  | cons s specs ih =>
    obtain ⟨⟨i, rfl⟩, behind⟩ := List.forall_mem_cons.mp imports
    exact .pure_bind ((ih behind).last fun _ => ⟨_, rfl, fun _ _ settled =>
      ⟨.cons (Spec.like_importSpec i) settled.1, settled.2⟩⟩)

/-! ### Single declarations -/

namespace Decl

theorem Stands.start_ge {ok : Landmark → Prop} {d : Decl} (h : d.Stands O ok items) :
    ∀ s ∈ d.items, d.pos ≤ s.start := by
  cases d with
  | func f => exact List.forall_mem_singleton.mpr (Nat.le_refl _)
  | gen d =>
    have placed : d.Placed (Span.Free O items) ok := h.placed
    dsimp only [Decl.items]
    split
    · exact nofun
    · exact List.forall_mem_map.mpr fun s mem => (placed.specs s mem).1

end Decl

variable (extra : k.extra = opts.extra) (rising : CommentGroup.Rising k.comments)
include extra rising

/-- The specs of a declaration settle what is within its items. -/
theorem GenDecl.settle_specs {d : GenDecl} (h : (Decl.gen d).Stands O (Clear O k) items) :
    Settles n O (Span.AnyInside (Decl.gen d).items)
      (Spec.visitAll (visitor opts k.comments) d.specs) fun specs t =>
        List.Forall₂ Spec.Like d.specs specs ∧ AllTidy k t (Spec.nodesAll specs) := by
  have placed : d.Placed (Span.Free O items) (Clear O k) := h.placed
  by_cases imports : d.kind = .imports
  · exact Spec.settle_imports fun s mem => ((placed.imports imports).2 s mem).1
  · obtain ⟨each, apart⟩ := placed.others imports
    obtain ⟨hi, inOrder⟩ := Spec.inOrder_all (fun s mem => (placed.specs s mem).1) each apart
    rw [Decl.items, if_neg imports]
    exact Spec.settleAll extra rising d.specs _ hi inOrder

namespace Tidy

omit extra rising in
theorem gives_run' {α : Type} {x : Tidying α} {depth : Nat} {Q : α → LineTable → Prop}
    (h : Gives (x.run depth) t fun r t' => Q r.1 t') : Gives (x.run' depth) t Q :=
  .bind h fun _ _ holds => .pure holds

/-- Tidying the nodes of a declaration changes lines from where it begins on, and breaks them within
its items only. -/
theorem nodes_settles {d : Decl} (cover : t.Over n) (clean : t.Clean O (Span.AnyInside d.items))
    (h : d.Stands O (Clear O k) items) :
    Gives (nodes opts k.comments d) t fun d' t' => t.Shifts n d.pos (Span.AnyInside d.items) t' ∧
      ∀ t'', t''.Over n → Agree (Span.AnyInside d.items) t' t'' → AllTidy k t'' d'.nodes := by
  refine gives_run' ?_
  have own : ∀ s, Span.AnyInside d.items s → d.pos ≤ s := fun s ⟨i, mem, within⟩ =>
    Nat.le_trans (h.start_ge i mem) (Nat.le_of_lt within.1)
  cases d with
  | func f =>
    have settles : Settles n O (Span.AnyInside (Decl.func f).items)
        (f.visit (visitor opts k.comments)) fun f' t => True ∧ AllTidy k t f'.nodes :=
      (FuncDecl.remade extra rising f f.pos f.stop h.placed.2).widen fun s within =>
        ⟨_, List.mem_singleton_self _, within⟩
    refine .bind (settles 0 t cover clean) ?_
    rintro ⟨f', depth⟩ t' ⟨cover', same, settled⟩
    exact .pure ⟨.of_agree cover' same own, fun t'' cover'' same => (settled t'' cover'' same).2⟩
  | gen d =>
    have placed : d.Placed (Span.Free O items) (Clear O k) := h.placed
    refine .bind (GenDecl.visit_gives (GenDecl.settle_specs extra rising h) cover clean 0) ?_
    rintro ⟨d', depth⟩ t' ⟨cover', ⟨t₁, loses, same, -⟩, settled⟩
    have beside : ∀ s, d.Beside s → (Decl.gen d).pos ≤ s := by
      change ∀ s, d.Beside s → d.kwPos.start ≤ s
      rintro s ⟨spec, single, ⟨low, -⟩ | ⟨low, -⟩⟩
      · exact Nat.le_of_lt low
      · have mem : spec ∈ d.specs := by simp [single]
        have wide : spec.pos ≤ spec.stop := by
          by_cases imports : d.kind = .imports
          · exact ((placed.imports imports).2 spec mem).2.1
          · exact ((placed.others imports).1 spec mem).le
        have := (placed.specs spec mem).1
        omega
    exact .pure ⟨(Shifts.of_loses loses beside).trans (.of_agree cover' same own), settled⟩

/-- So does finishing a declaration, which may break lines beside the items before. -/
theorem finish_settles {m : Merged} (cover : t.Over n)
    (clean : t.Clean O (Span.AnyInside m.decl.items)) (h : m.decl.Stands O (Clear O k) items) :
    Gives (finish opts k.comments m) t fun d' t' =>
      t.Shifts n (m.decl.pos - 1)
        (fun s => Span.Free O items s ∨ Span.AnyInside m.decl.items s) t' ∧
      ∀ t'', t''.Over n → Agree (Span.AnyInside m.decl.items) t' t'' → AllTidy k t'' d'.nodes := by
  have behind : ∀ d t₁, t.Shifts n (m.decl.pos - 1) (Span.Free O items) t₁ ∧
      d.Stands O (Clear O k) items ∧ m.decl.Stays d →
      Gives (nodes opts k.comments d) t₁ fun d' t' =>
        t.Shifts n (m.decl.pos - 1)
          (fun s => Span.Free O items s ∨ Span.AnyInside m.decl.items s) t' ∧
        ∀ t'', t''.Over n → Agree (Span.AnyInside m.decl.items) t' t'' →
          AllTidy k t'' d'.nodes := by
    rintro d t₁ ⟨shifts, stands, stays⟩
    have clean₁ : t₁.Clean O (Span.AnyInside d.items) := by
      rw [stays.items]
      intro s mem within
      rcases shifts.added s mem with old | free
      · exact clean s old within
      · obtain ⟨i, own, inside⟩ := within
        exact free ⟨i, h.own own, inside⟩
    refine (nodes_settles extra rising shifts.cover clean₁ stands).mono ?_
    rw [stays.items]
    intro d' t' ⟨shifts', settled⟩
    refine ⟨(shifts.mono (Nat.le_refl _) fun _ => .inl).trans (shifts'.mono ?_ fun _ => .inr),
      settled⟩
    exact Nat.le_trans (Nat.sub_le _ 1) stays.pos
  unfold finish
  split
  · exact .bind (gatherImports_stays cover h) behind
  · exact behind _ t ⟨.refl cover, h, .refl _⟩

end Tidy

end Settling

/-! ### One after the other -/

namespace Tidy

theorem onLines_gives {α : Type} {x : Relining α} {Q : α → LineTable → Prop} {f : SourceFile}
    (h : Gives x f.lines Q) :
    Gives (onLines x) f fun a f' => Q a f'.lines ∧ f' = { f with lines := f'.lines } := by
  intro a f' run
  unfold onLines at run
  split at run
  · rename_i a' lines done
    cases run
    exact ⟨h _ _ done, rfl⟩
  · nomatch run

/-- What every step preserves of the declarations replaced so far, of those to come and of the lines
holds when all are replaced. -/
theorem replace_gives {α : Type} {now : α → Decl} {step : α → Relining Decl}
    {I : List Decl → List α → LineTable → Prop}
    (preserved : ∀ done a rest t, I done (a :: rest) t →
      Gives (step a) t fun d t' => I (done ++ [d]) rest t')
    {f : SourceFile} {done : List Decl} {as : List α} (decls : f.decls = done ++ as.map now)
    (start : I done as f.lines) :
    Gives (replace now step done as) f fun _ f' =>
      I f'.decls [] f'.lines ∧ f'.name = f.name ∧ f'.comments = f.comments := by
  induction as generalizing f done with
  | nil =>
    obtain rfl : f.decls = done := by simpa using decls
    exact .pure ⟨start, rfl, rfl⟩
  | cons a rest ih =>
    refine .bind (onLines_gives (preserved _ _ _ _ start)) ?_
    rintro d f₁ ⟨next, same⟩
    generalize f₁.lines = lines at next same
    subst same
    exact ih (f := { f with lines, decls := done ++ d :: rest.map now })
      (List.append_cons done d _) next

variable {k : Setting} {opts : Options}

/-- The declarations done are settled by starts before those to come, and these stand clean. -/
structure Finishing (n : Nat) (O : Nat → Prop) (k : Setting) (items : List Span)
    (done : List Decl) (rest : List Merged) (t : LineTable) : Prop where
  cover : t.Over n
  clean : t.Clean O (Span.AnyInside (rest.flatMap (·.decl.items)))
  stand : ∀ m ∈ rest, m.decl.Stands O (Clear O k) items
  ahead : rest.Pairwise fun m m' => m.decl.Ahead m'.decl
  settled : ∃ Z : Nat → Prop, (∀ s, Z s → ∀ m ∈ rest, s < m.decl.pos - 1) ∧
    ∀ t'', t''.Over n → Agree Z t t'' → AllTidy k t'' (done.flatMap Decl.nodes)

theorem Finishing.step (extra : k.extra = opts.extra) (rising : CommentGroup.Rising k.comments)
    {done : List Decl} {m : Merged} {rest : List Merged}
    (h : Finishing n O k items done (m :: rest) t) :
    Gives (finish opts k.comments m) t fun d t' => Finishing n O k items (done ++ [d]) rest t' := by
  obtain ⟨cover, clean, stand, ahead, Z, before, settled⟩ := h
  obtain ⟨here, stand⟩ := List.forall_mem_cons.mp stand
  obtain ⟨first, ahead⟩ := List.pairwise_cons.mp ahead
  have own : ∀ s, Span.AnyInside m.decl.items s → ∀ m' ∈ rest, s < m'.decl.pos - 1 := by
    rintro s ⟨i, mem, within⟩ m' later
    have := (first m' later).items i mem
    have := within.2
    omega
  have split : ∀ s, Span.AnyInside ((m :: rest).flatMap (·.decl.items)) s ↔
      Span.AnyInside m.decl.items s ∨ Span.AnyInside (rest.flatMap (·.decl.items)) s :=
    fun s => Span.anyInside_append
  refine (finish_settles extra rising cover (clean.mono fun s => (split s).mpr ∘ .inl) here).mono ?_
  rintro d t' ⟨shifts, ofDecl⟩
  refine ⟨shifts.cover, fun s mem within => ?_, stand, ahead,
    fun s => Z s ∨ Span.AnyInside m.decl.items s, ?_, fun t'' cover'' same => ?_⟩
  · obtain ⟨i, listed, inside⟩ := within
    obtain ⟨m', later, found⟩ := List.mem_flatMap.mp listed
    rcases shifts.added s mem with old | free | inOwn
    · exact clean s old ((split s).mpr (.inr ⟨i, listed, inside⟩))
    · exact free ⟨i, (stand m' later).own found, inside⟩
    · have := own s inOwn m' later
      have := (stand m' later).start_ge i found
      have := inside.1
      omega
  · rintro s (within | within) m' later
    · exact before s within m' (List.mem_cons_of_mem _ later)
    · exact own s within m' later
  · rw [List.flatMap_append]
    refine .append (settled t'' cover'' ?_) ?_
    · exact (shifts.kept.mono fun s within => before s within m List.mem_cons_self).trans
        (same.mono fun _ => .inl)
    · rw [List.flatMap_singleton]
      exact ofDecl t'' cover'' (same.mono fun _ => .inr)

end Tidy

end GoLayout
