import GoLayout.Proofs.Format
import GoLayout.Proofs.Settle.File
import GoLayout.Proofs.Tidy.StandardFirst

/-!
Comments behind imports. Comments are never moved, so a comment stays with an import that is not
moved either. An import with a comment is not put into the first run of its group. But where another
one is, every run of the group is sorted, and then the imports of a run change places below the
comments.
-/

namespace GoLayout

/-! ### Imports in another order -/

/-- Whether gathering may move an import and has not done so yet: what was moved has no extent. -/
def Spec.isFree (modulePath : Option String) (s : Spec) : Bool :=
  s.isMovable modulePath && decide (s.pos < s.stop)

theorem Spec.isFree_restamp {modulePath : Option String} {s : Spec} {pos : Nat} :
    (s.restamp pos).isFree modulePath = false := by
  cases s with
  | importSpec i =>
    have isImport : (Spec.importSpec i).IsImport := ⟨i, rfl⟩
    simp [isFree, isImport.pos_restamp, isImport.stop_restamp]
  | valueSpec | typeSpec => rfl

namespace Imports

variable {modulePath : Option String} {home : Nat} {t t' : LineTable}
  {specs specs' specs'' first rest : List Spec}

/-- Of the imports as they were read, the second list has all in some order, or one that could be
moved was moved. -/
structure Rearranges (modulePath : Option String) (specs specs' : List Spec) : Prop where
  fewer : specs'.countP (·.isFree modulePath) ≤ specs.countP (·.isFree modulePath)
  settled : (∀ s ∈ specs, s.pos < s.stop) →
    specs'.Perm specs ∨ specs'.countP (·.isFree modulePath) < specs.countP (·.isFree modulePath)

namespace Rearranges

theorem refl (specs : List Spec) : Rearranges modulePath specs specs :=
  ⟨Nat.le_refl _, fun _ => .inl (.refl _)⟩

theorem trans (left : Rearranges modulePath specs specs')
    (right : Rearranges modulePath specs' specs'') : Rearranges modulePath specs specs'' where
  fewer := Nat.le_trans right.fewer left.fewer
  settled := by
    intro solid
    rcases left.settled solid with perm | less
    · rcases right.settled fun s mem => solid s (perm.mem_iff.mp mem) with perm' | less
      · exact .inl (perm'.trans perm)
      · exact .inr (perm.countP_eq _ ▸ less)
    · exact .inr (Nat.lt_of_le_of_lt right.fewer less)

theorem append (left : Rearranges modulePath specs specs')
    (right : Rearranges modulePath first rest) :
    Rearranges modulePath (specs ++ first) (specs' ++ rest) where
  fewer := by
    rw [List.countP_append, List.countP_append]
    exact Nat.add_le_add left.fewer right.fewer
  settled := by
    intro solid
    obtain ⟨solid, solid'⟩ := List.forall_mem_append.mp solid
    rw [List.countP_append, List.countP_append]
    rcases left.settled solid with perm | less
    · rcases right.settled solid' with perm' | less'
      · exact .inl (perm.append perm')
      · exact .inr (Nat.add_lt_add_of_le_of_lt left.fewer less')
    · exact .inr (Nat.add_lt_add_of_lt_of_le less right.fewer)

end Rearranges

theorem Gathered.rearranges (h : Gathered modulePath home t t' specs specs' first rest) :
    Rearranges modulePath specs specs' := by
  by_cases moved : rest.any (·.isMovable modulePath)
  · have atHome : (movedTo modulePath home rest).countP (·.isFree modulePath) = 0 := by
      refine List.countP_eq_zero.mpr fun s mem => ?_
      obtain ⟨r, -, -, rfl⟩ := mem_movedTo mem
      simp [Spec.isFree_restamp]
    have fixed : (unmoved modulePath rest).countP (·.isFree modulePath) = 0 := by
      refine List.countP_eq_zero.mpr fun s mem => ?_
      simp [Spec.isFree, (mem_unmoved mem).2]
    have le : specs'.countP (·.isFree modulePath) ≤ first.countP (·.isFree modulePath) := by
      rw [h.result, if_pos moved]
      refine Nat.le_trans (countP_sortRuns (by simp [Spec.isFree_restamp]) t' _) ?_
      rw [List.countP_append, List.countP_append, atHome, fixed]
      exact Nat.le_refl _
    rw [h.parts]
    refine ⟨?_, fun solid => .inr ?_⟩
    · rw [List.countP_append]
      exact Nat.le_add_right_of_le le
    · obtain ⟨r, mem, movable⟩ := List.any_eq_true.mp moved
      have wide := solid r (List.mem_append_right _ mem)
      have free : 0 < rest.countP (·.isFree modulePath) :=
        List.countP_pos_iff.mpr ⟨r, mem, by simp [Spec.isFree, movable, wide]⟩
      rw [List.countP_append]
      omega
  · have same : specs' = specs := by
      have all : unmoved modulePath rest = rest := by
        refine List.filter_eq_self.mpr fun s mem => ?_
        have := List.any_eq_false.mp (Bool.not_eq_true _ |>.mp moved) s mem
        simpa using this
      rw [h.result, if_neg moved, movedTo_eq_nil moved, all, List.append_nil, h.parts]
    exact same ▸ .refl _

end Imports

open Imports (Rearranges)

/-! ### Declarations -/

/-- The spec of a part in a declaration of imports. -/
def Part.imported? : Part → Option Spec
  | .spec kind s => if kind = .imports then some s else none
  | .func _ => none

/-- The specs of a declaration of imports. -/
def Decl.imported (d : Decl) : List Spec := d.parts.filterMap Part.imported?

theorem Decl.imported_gen (d : GenDecl) :
    (Decl.gen d).imported = if d.kind = .imports then d.specs else [] := by
  rw [imported, parts, List.filterMap_map]
  split
  · rename_i imports
    have same : Part.imported? ∘ Part.spec d.kind = some := funext fun s => if_pos imports
    rw [same, List.filterMap_some]
  · rename_i others
    exact List.filterMap_eq_nil_iff.mpr fun s _ => if_neg others

theorem Decl.wellKinded_parts {d : Decl} :
    (∀ p ∈ d.parts, p.WellKinded) ↔ d.OfImports fun d => ∀ s ∈ d.specs, s.IsImport := by
  cases d with
  | func f => exact iff_of_true (List.forall_mem_singleton.mpr trivial) trivial
  | gen d =>
    refine List.forall_mem_map.trans ⟨fun h imports s mem => h s mem imports, ?_⟩
    exact fun h s mem imports => h imports s mem

/-- The imports of a declaration are rearranged, and imports they stay. -/
def Decl.Rearranged (modulePath : Option String) (d d' : Decl) : Prop :=
  (∀ p ∈ d.parts, p.WellKinded) →
    (∀ p ∈ d'.parts, p.WellKinded) ∧ Rearranges modulePath d.imported d'.imported

variable {modulePath : Option String}

theorem Decl.Rearranged.of_parts {d d' : Decl} (same : d'.parts = d.parts) :
    d.Rearranged modulePath d' := by
  intro kinded
  rw [Decl.imported, Decl.imported, same]
  exact ⟨kinded, .refl _⟩

theorem Decl.Rearranged.trans {d d' d'' : Decl} (left : d.Rearranged modulePath d')
    (right : d'.Rearranged modulePath d'') : d.Rearranged modulePath d'' := by
  intro kinded
  obtain ⟨kinded', first⟩ := left kinded
  obtain ⟨kinded'', second⟩ := right kinded'
  exact ⟨kinded'', first.trans second⟩

theorem Decl.Rearranged.of_forall₂ {α : Type} (now : α → Decl) {as : List α} {ds : List Decl}
    (h : List.Forall₂ (fun a d => (now a).Rearranged modulePath d) as ds)
    (kinded : ∀ p ∈ (as.map now).flatMap Decl.parts, p.WellKinded) :
    (∀ p ∈ ds.flatMap Decl.parts, p.WellKinded) ∧
      Rearranges modulePath ((as.map now).flatMap Decl.imported) (ds.flatMap Decl.imported) := by
  induction h with
  | nil => exact ⟨nofun, .refl _⟩
  | cons here _ ih =>
    rw [List.map_cons, List.flatMap_cons] at kinded ⊢
    obtain ⟨first, behind⟩ := List.forall_mem_append.mp kinded
    obtain ⟨first, rearranged⟩ := here first
    obtain ⟨behind, rearranged'⟩ := ih behind
    rw [List.flatMap_cons, List.flatMap_cons]
    exact ⟨List.forall_mem_append.mpr ⟨first, behind⟩, rearranged.append rearranged'⟩

/-- Merging keeps the imports as they are. -/
theorem Groups.imported_merge {comments : List CommentGroup} {lines : LineTable} (ds : List Decl) :
    (((merge comments lines ds).filter (!·.decl.isEmpty)).map (·.decl)).flatMap Decl.imported =
      ds.flatMap Decl.imported := by
  have ofParts (ds : List Decl) : ds.flatMap Decl.imported =
      (ds.flatMap Decl.parts).filterMap Part.imported? := List.filterMap_flatMap.symm
  rw [ofParts, ofParts, parts_merge]

namespace Tidy

variable {n : Nat} {opts : Options} {comments : List CommentGroup}

theorem Gathers.rearranged {d d' : Decl} (h : d.OfImports (fun d => ∀ s ∈ d.specs, s.IsImport) →
    Gathers n modulePath d d') : d.Rearranged modulePath d' := by
  intro kinded
  cases h (Decl.wellKinded_parts.mp kinded) with
  | same => exact ⟨kinded, .refl _⟩
  | @group d specs first rest _ _ _ imports gathered =>
    have all : ∀ s ∈ d.specs, s.IsImport := Decl.wellKinded_parts.mp kinded imports
    refine ⟨Decl.wellKinded_parts.mpr fun _ => ?_, ?_⟩
    · exact gathered.forall_mem (fun _ pos isImport => isImport.restamp pos) all
    · rw [Decl.imported_gen, Decl.imported_gen, if_pos imports, if_pos imports]
      exact gathered.rearranges

theorem gatherImports_rearranged {d : Decl} (h : d.Within n) :
    (gatherImports opts d).Safe n fun d' => d'.Within n ∧ d.Rearranged opts.modulePath d' :=
  (gatherImports_gathers h).mono fun _ ⟨within, gathers⟩ => ⟨within, Gathers.rearranged gathers⟩

theorem flatten_rearranged (modulePath : Option String) {d : Decl} (h : d.Within n) :
    (Tidy.flatten comments d).Safe n fun d' => d'.Within n ∧ d.Rearranged modulePath d' := by
  have parts : ∀ t, Gives (Tidy.flatten comments d) t fun d' _ => d'.parts = d.parts := by
    intro t
    cases d with
    | func f => exact .pure rfl
    | gen d =>
      refine .bind GenDecl.flatten_gives ?_
      rintro _ t' (rfl | ⟨kwPos, rfl, -⟩)
      · exact .pure rfl
      · exact .pure rfl
  exact ((flatten_safe h).and_gives fun t _ => parts t).mono fun _ ⟨⟨within, _⟩, same⟩ =>
    ⟨within, .of_parts same⟩

theorem visit_rearranged {d : Decl} (h : d.Within n) :
    (judgement n).Holds (d.visit (visitor opts comments)) (d.Rearranged modulePath) := by
  cases d with
  | func f =>
    have pos : 0 < n := Nat.zero_lt_of_lt h.1.1
    refine (judgement n).bind (f.visit_kept (visitor_sound pos) h) fun _ _ => ?_
    exact (judgement n).pure fun _ => ⟨List.forall_mem_singleton.mpr trivial, .refl _⟩
  | gen d =>
    refine (judgement n).bind (visit_imports h) fun d' ⟨sameKind, _, sameSpecs⟩ => ?_
    refine (judgement n).pure fun kinded => ?_
    have ofImports := Decl.wellKinded_parts.mp kinded
    rw [Decl.wellKinded_parts, Decl.imported_gen, Decl.imported_gen, sameKind]
    by_cases imports : d.kind = .imports
    · rw [if_pos imports, if_pos imports, sameSpecs (ofImports imports)]
      refine ⟨fun _ => ?_, .refl _⟩
      change ∀ s ∈ d'.specs, s.IsImport
      rw [sameSpecs (ofImports imports)]
      exact ofImports imports
    · rw [if_neg imports, if_neg imports]
      exact ⟨fun imports' => absurd (sameKind.symm.trans imports') imports, .refl _⟩

theorem finish_rearranged {m : Merged} (h : m.decl.Within n) :
    (finish opts comments m).Safe n (m.decl.Rearranged opts.modulePath) := by
  have nodes_safe : ∀ d : Decl, d.Within n ∧ m.decl.Rearranged opts.modulePath d →
      (nodes opts comments d).Safe n (m.decl.Rearranged opts.modulePath) :=
    fun d ⟨within, rearranged⟩ => .map ((visit_rearranged within 0).mono fun r visited =>
      rearranged.trans visited)
  unfold finish
  split
  · exact .bind (gatherImports_rearranged h) nodes_safe
  · exact .bind (.pure ⟨h, .of_parts rfl⟩) nodes_safe

end Tidy

/-! ### Whole files -/

namespace SourceFile

variable {src : String} {f : SourceFile} {opts : Options}

/-- The specs of all declarations of imports. -/
def imported (f : SourceFile) : List Spec := f.decls.flatMap Decl.imported

/-- The imports of a file. -/
def importSpecs (f : SourceFile) : List ImportSpec := f.imported.filterMap Spec.import?

theorem mem_importSpecs {i : ImportSpec} : i ∈ f.importSpecs ↔ .importSpec i ∈ f.imported := by
  rw [importSpecs, List.mem_filterMap]
  constructor
  · rintro ⟨s, mem, isImport⟩
    cases s with
    | importSpec i' => exact Option.some.inj isImport ▸ mem
    | _ => nomatch isImport
  · exact fun mem => ⟨_, mem, rfl⟩

theorem tidy_rearranges (read : SourceFile.parse src = .ok f) :
    Yields (SourceFile.tidy opts) f fun _ f' =>
      Rearranges opts.modulePath f.imported f'.imported := by
  obtain ⟨cover, kinds⟩ := over_of_parse read
  refine (tidy_stages opts cover (fun _ => Tidy.gatherImports_rearranged)
    (fun _ => Tidy.flatten_rearranged opts.modulePath) fun _ => Tidy.finish_rearranged).mono ?_
  rintro - f' ⟨lines, gathered, flat, first, second, last⟩
  have kinded : ∀ p ∈ (f.decls.map id).flatMap Decl.parts, p.WellKinded := by
    rw [List.map_id]
    exact kinds.parts
  obtain ⟨kinded₁, first⟩ := Decl.Rearranged.of_forall₂ id first kinded
  rw [← List.map_id gathered] at kinded₁
  obtain ⟨kinded₂, second⟩ := Decl.Rearranged.of_forall₂ id second kinded₁
  rw [← Groups.parts_merge] at kinded₂
  obtain ⟨-, last⟩ := Decl.Rearranged.of_forall₂ Merged.decl last kinded₂
  rw [List.map_id] at first second
  rw [Groups.imported_merge] at last
  exact first.trans (second.trans last)

/-- The imports of a file as it was read have extents, and are different from one another. -/
theorem imported_of_parse (read : SourceFile.parse src = .ok f) :
    (∀ s ∈ f.imported, s.pos < s.stop) ∧ f.imported.Nodup := by
  have row := row_of_parse read
  have listed (ds : List Decl) : ((ds.flatMap Decl.imported).map Spec.extent).Sublist
      (ds.flatMap Decl.importSpans) := by
    induction ds with
    | nil => exact .slnil
    | cons d ds ih =>
      rw [List.flatMap_cons, List.flatMap_cons, List.map_append]
      refine .append ?_ ih
      cases d with
      | func f => exact .slnil
      | gen d =>
        rw [Decl.imported_gen, Decl.importSpans, GenDecl.importSpans]
        split
        · exact List.sublist_cons_self _ _
        · exact .slnil
  have wide : ∀ s ∈ f.imported, s.pos < s.stop := fun s mem => by
    have := row.wide _ ((listed f.decls).subset (List.mem_map_of_mem mem))
    have : s.pos + 2 ≤ s.stop := this
    omega
  have apart := List.pairwise_map.mp (row.apart.sublist (listed f.decls))
  refine ⟨wide, apart.imp_of_mem fun {a b} mem _ le same => ?_⟩
  subst same
  have le : a.stop ≤ a.pos := le
  exact Nat.not_lt.mpr le (wide a mem)

/-- Imports are only moved where one that has no name and no comment is moved to the first run of its
group. Where none is, each stands where it stood before, and so do the comments. -/
theorem tidy_leaves_imports (read : SourceFile.parse src = .ok f) :
    ∃ f', (SourceFile.tidy opts).run f = .ok () f' ∧
      f'.comments = f.comments.map (·.spaced) ∧
      ((∀ i ∈ f.importSpecs, (Spec.importSpec i).isMovable opts.modulePath → i ∈ f'.importSpecs) →
        ∀ i ∈ f.importSpecs, i ∈ f'.importSpecs) := by
  obtain ⟨_, f', run, rearranges⟩ := tidy_rearranges read
  obtain ⟨_, f'', run', -, comments⟩ := tidy_settles opts read
  cases run.symm.trans run'
  obtain ⟨solid, distinct⟩ := imported_of_parse read
  refine ⟨f', run, comments, fun stays i mem => ?_⟩
  have kept : f.imported.filter (·.isFree opts.modulePath) ⊆
      f'.imported.filter (·.isFree opts.modulePath) := by
    intro s mem
    obtain ⟨found, free⟩ := List.mem_filter.mp mem
    refine List.mem_filter.mpr ⟨?_, free⟩
    cases s with
    | importSpec i =>
      exact mem_importSpecs.mp (stays i (mem_importSpecs.mpr found)
        (Bool.and_eq_true_iff.mp free).1)
    | valueSpec | typeSpec => nomatch free
  have count : f.imported.countP (·.isFree opts.modulePath) ≤
      f'.imported.countP (·.isFree opts.modulePath) := by
    rw [List.countP_eq_length_filter, List.countP_eq_length_filter]
    exact (List.subperm_of_subset (distinct.filter _) kept).length_le
  rcases rearranges.settled solid with perm | less
  · exact mem_importSpecs.mpr (perm.mem_iff.mpr (mem_importSpecs.mp mem))
  · exact absurd less (Nat.not_lt.mpr count)

/-- An import with a comment behind one that could be moved and need not be. -/
theorem tidy_leaves_imports_of_comment :
    ∃ f f', SourceFile.parse "package p\nimport (\n\"a\"\n\"b.c\"\n\"z\" // x\n)\n" = .ok f ∧
      (SourceFile.tidy ⟨none, false, none, false, none⟩).run f = .ok () f' ∧
      (∃ i ∈ f.importSpecs, i.comment.isSome) ∧
      (∃ i ∈ f.importSpecs, (Spec.importSpec i).isMovable none) ∧
      ∀ i ∈ f.importSpecs, i ∈ f'.importSpecs := by
  obtain ⟨f, f', read, run, evaluated⟩ := exists_of_tidied (b := true)
    "package p\nimport (\n\"a\"\n\"b.c\"\n\"z\" // x\n)\n" ⟨none, false, none, false, none⟩
    (p := fun f f' => decide ((∃ i ∈ f.importSpecs, i.comment.isSome) ∧
      (∃ i ∈ f.importSpecs, (Spec.importSpec i).isMovable none) ∧
      ∀ i ∈ f.importSpecs, (Spec.importSpec i).isMovable none → i ∈ f'.importSpecs))
    (by decide +kernel)
  obtain ⟨commented, movable, stays⟩ := of_decide_eq_true evaluated
  obtain ⟨f'', run', -, leaves⟩ :=
    @tidy_leaves_imports _ f ⟨none, false, none, false, none⟩ read
  cases run.symm.trans run'
  exact ⟨f, f', read, run, commented, movable, leaves stays⟩

/-- The comments behind an import, if there are any. -/
def commentsBehind (f : SourceFile) (i : ImportSpec) : Option CommentGroup :=
  i.comment.bind (f.comments[·]?)

end SourceFile

/-- The second text is the first one, or has a space behind its two slashes in addition. -/
def Comment.SameText (text text' : String) : Prop :=
  text' = text ∨ text'.toList = '/' :: '/' :: ' ' :: text.toList.drop 2

instance : DecidableRel Comment.SameText := fun text text' =>
  inferInstanceAs (Decidable (text' = text ∨ text'.toList = '/' :: '/' :: ' ' :: text.toList.drop 2))

/-- Where an import is moved to the first run, the others of that run are sorted below their
comments. -/
theorem format_exchanges_comments :
    ¬ ∀ src opts out f f', opts.rule = none → SourceFile.parse src = .ok f →
      format src opts = .ok out → SourceFile.parse out = .ok f' →
      ∀ i ∈ f.importSpecs, f.imports.count (i.nameText, i.path.unquoted) = 1 →
      ∀ g ∈ f.commentsBehind i, (∀ c ∈ g.toList, c.kind = .line) →
      ∃ i' ∈ f'.importSpecs, (i'.nameText, i'.path.unquoted) = (i.nameText, i.path.unquoted) ∧
        ∃ g' ∈ f'.commentsBehind i', List.Forall₂ Comment.SameText g.texts g'.texts := by
  intro stays
  obtain ⟨f, out, f', read, formatted, read', exchanged⟩ := exists_of_formatted (b := false)
    "package p\n\nimport (\n\t\"os\" // c1\n\t\"fmt\" // c2\n\n\t\"b.c/d\"\n\t\"io\"\n)\n"
    ⟨none, false, none, false, none⟩
    (p := fun f f' => decide (∀ i ∈ f.importSpecs,
      f.imports.count (i.nameText, i.path.unquoted) = 1 →
      ∀ g ∈ f.commentsBehind i, (∀ c ∈ g.toList, c.kind = .line) →
      ∃ i' ∈ f'.importSpecs, (i'.nameText, i'.path.unquoted) = (i.nameText, i.path.unquoted) ∧
        ∃ g' ∈ f'.commentsBehind i', List.Forall₂ Comment.SameText g.texts g'.texts))
    (by decide +kernel)
  exact of_decide_eq_false exchanged (stays _ _ out f f' rfl read formatted read')

end GoLayout
