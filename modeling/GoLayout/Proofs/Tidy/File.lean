import GoLayout.Proofs.Tidy.Groups
import Mathlib.Data.List.Forall2

/-!
Tidying a whole file. Every edit of the line table succeeds, so tidying does, and without the
extra rules and with no newer language it keeps the content of the file.
-/

namespace GoLayout

variable {n : Nat} {f f' f'' : SourceFile}

/-- A file that came of `f`, with other declarations and with lines over the same bytes. -/
structure SourceFile.Stems (n : Nat) (f f' : SourceFile) : Prop where
  name : f'.name = f.name
  comments : f'.comments = f.comments
  lines : f'.lines.Over n

theorem SourceFile.Stems.trans (first : f.Stems n f') (second : f'.Stems n f'') : f.Stems n f'' :=
  ⟨second.name.trans first.name, second.comments.trans first.comments, second.lines⟩

namespace Tidy

theorem onLines_yields {α : Type} {x : Relining α} {Q : α → Prop} (h : x.Safe n Q)
    (cover : f.lines.Over n) :
    Yields (onLines x) f fun a f' => Q a ∧ f'.decls = f.decls ∧ f.Stems n f' := by
  obtain ⟨a, lines, run, holds, cover'⟩ := h f.lines cover
  refine ⟨a, { f with lines }, ?_, holds, rfl, rfl, rfl, cover'⟩
  simp only [onLines, run]

/-- Declarations are replaced one by one, each by one that is to it as `R` says. -/
theorem replace_yields {α : Type} {now : α → Decl} {step : α → Relining Decl}
    {R : α → Decl → Prop} {done : List Decl} {as : List α} (h : ∀ a ∈ as, (step a).Safe n (R a))
    (cover : f.lines.Over n) (decls : f.decls = done ++ as.map now) :
    Yields (replace now step done as) f fun _ f' =>
      ∃ ds, f'.decls = done ++ ds ∧ List.Forall₂ R as ds ∧ f.Stems n f' := by
  induction as generalizing f done with
  | nil => exact .pure ⟨[], decls, .nil, rfl, rfl, cover⟩
  | cons a rest ih =>
    obtain ⟨here, behind⟩ := List.forall_mem_cons.mp h
    refine .bind (onLines_yields here cover) ?_
    rintro d f₁ ⟨ofDecl, -, stems⟩
    refine .modify_bind (.mono (ih behind stems.lines (List.append_cons done d _)) ?_)
    rintro - f₂ ⟨ds, decls', ofDecls, stems'⟩
    refine ⟨d :: ds, ?_, .cons ofDecl ofDecls,
      stems.trans ⟨stems'.name, stems'.comments, stems'.lines⟩⟩
    rw [decls', List.append_assoc]
    rfl

/-- A pass over all declarations of a file. -/
theorem pass_yields {step : Decl → Relining Decl} {R : Decl → Decl → Prop}
    (h : ∀ d, d.Within n → (step d).Safe n fun d' => d'.Within n ∧ R d d')
    (within : ∀ d ∈ f.decls, d.Within n) (cover : f.lines.Over n) :
    Yields (replace id step [] f.decls) f fun _ f' =>
      (∀ d ∈ f'.decls, d.Within n) ∧ List.Forall₂ R f.decls f'.decls ∧ f.Stems n f' := by
  refine (replace_yields (fun d mem => h d (within d mem)) cover (by simp)).mono ?_
  rintro - f' ⟨ds, decls, each, stems⟩
  obtain rfl : f'.decls = ds := decls
  have swapped : List.Forall₂ (fun d' d => d'.Within n ∧ R d d') f'.decls f.decls := each.flip
  obtain ⟨within', related⟩ := (List.forall₂_and_left _ _).mp swapped
  exact ⟨within', related.flip, stems⟩

end Tidy

/-! ### The whole pass -/

open Tidy in
/-- The stages of tidying. What gathering imports, flattening and tidying the nodes do to single
declarations, they do to the declarations of a file one by one; in between these are merged, by
the lines at hand then. -/
theorem SourceFile.tidy_stages (opts : Options) (h : f.Over n) {G F : Decl → Decl → Prop}
    {E : Merged → Decl → Prop}
    (gathers : ∀ d, d.Within n → (gatherImports opts d).Safe n fun d' => d'.Within n ∧ G d d')
    (flattens : ∀ d, d.Within n →
      (Tidy.flatten f.comments d).Safe n fun d' => d'.Within n ∧ F d d')
    (finishes : ∀ m : Merged, m.decl.Within n →
      (finish opts (f.comments.map (·.spaced)) m).Safe n (E m)) :
    Yields (SourceFile.tidy opts) f fun _ f' => ∃ lines gathered flat,
      List.Forall₂ G f.decls gathered ∧ List.Forall₂ F gathered flat ∧
      List.Forall₂ E ((Groups.merge f.comments lines flat).filter (!·.decl.isEmpty)) f'.decls := by
  have within : ∀ d ∈ f.decls, d.Within n := fun d mem => Decl.within_of_everywhere (h.decls d mem)
  refine .get_bind (.bind (pass_yields gathers within h.lines) ?_)
  rintro - f₁ ⟨within₁, gathered, stems₁⟩
  rw [← stems₁.comments] at flattens
  refine .get_bind (.get_bind (.bind (pass_yields flattens within₁ stems₁.lines) ?_))
  rintro - f₂ ⟨within₂, flat, stems₂⟩
  -- From here on it is the merged groups that are within the text.
  have stems : f.Stems n f₂ := stems₁.trans stems₂
  refine .get_bind ?_
  extract_lets merged decls comments
  have below : CommentGroup.Below n f₂.comments := by
    rw [stems.comments]
    exact h.comments
  have within₃ : ∀ m ∈ merged, m.decl.Within n := fun m mem =>
    Groups.merge_within below within₂ m (List.mem_of_mem_filter mem)
  have stop_le : f₂.name.span.stop ≤ n := by
    rw [stems.name]
    exact h.name.2
  have separated : (Groups.separate f₂.comments f₂.name.span.stop decls).Safe n fun _ => True :=
    Groups.separateFrom_safe stop_le (List.forall_mem_map.mpr within₃)
  refine .set_bind (.bind (onLines_yields separated stems₂.lines) ?_)
  rintro - f₃ ⟨-, decls₃, stems₃⟩
  have finished : ∀ m ∈ merged, (finish opts comments m).Safe n (E m) := fun m mem => by
    have safe := finishes m (within₃ m mem)
    rwa [← stems.comments] at safe
  refine .modify_bind (.mono (replace_yields finished stems₃.lines decls₃) ?_)
  rintro - f₄ ⟨ds, decls₄, each, -⟩
  obtain rfl : f₄.decls = ds := decls₄
  refine ⟨f₂.lines, f₁.decls, f₂.decls, gathered, flat, ?_⟩
  rw [← stems.comments]
  exact each

/-- What each declaration keeps, all of them keep. -/
theorem Keeps.of_forall₂ {α : Type} {now : α → Decl} {as : List α} {ds : List Decl}
    (h : List.Forall₂ (fun a d => Keeps (now a).parts d.parts) as ds) :
    Keeps ((as.map now).flatMap Decl.parts) (ds.flatMap Decl.parts) := by
  induction h with
  | nil => exact .refl _
  | cons kept _ ih =>
    rw [List.map_cons, List.flatMap_cons, List.flatMap_cons]
    exact kept.append ih

open Tidy in
theorem SourceFile.tidy_yields (opts : Options) (h : f.Over n) :
    Yields (SourceFile.tidy opts) f fun _ f' => Faithful opts → Keeps f.parts f'.parts := by
  refine (SourceFile.tidy_stages opts h (fun _ => gatherImports_safe) (fun _ => flatten_safe)
    fun _ => finish_safe).mono ?_
  rintro - f' ⟨lines, gathered, flat, kept₁, kept₂, kept₃⟩ faithful
  have first : Keeps f.parts (gathered.flatMap Decl.parts) := by
    simpa [SourceFile.parts] using @Keeps.of_forall₂ Decl id _ _ kept₁
  have second : Keeps (gathered.flatMap Decl.parts) (flat.flatMap Decl.parts) := by
    simpa using @Keeps.of_forall₂ Decl id _ _ kept₂
  have last : Keeps (flat.flatMap Decl.parts) f'.parts := by
    have finished := Keeps.of_forall₂ (kept₃.imp fun _ _ kept => kept faithful)
    rwa [Groups.parts_merge] at finished
  exact first.trans (second.trans last)

theorem Tidy.faithful_of_lang {opts : Options} (plain : opts.extra = false)
    (old : ∀ v ∈ opts.lang, v.major < 1 ∨ v.major = 1 ∧ v.minor < 13) : Faithful opts := by
  refine ⟨plain, ?_⟩
  cases lang : opts.lang with
  | none => simp [Options.langAtLeast, lang]
  | some v =>
    have bound := old v lang
    simp only [Options.langAtLeast, lang, Option.any_some, Version.atLeast]
    simp
    omega

theorem SourceFile.WellKinded.parts {f : SourceFile} (h : f.WellKinded) :
    ∀ p ∈ f.parts, p.WellKinded := by
  intro p mem
  obtain ⟨d, found, inDecl⟩ := List.mem_flatMap.mp mem
  cases d with
  | func g => exact List.mem_singleton.mp inDecl ▸ trivial
  | gen d =>
    obtain ⟨s, inSpecs, rfl⟩ := List.mem_map.mp inDecl
    exact fun isImports => h d found isImports s inSpecs

/-- Tidying keeps what a program says. Without the extra rules, and for a language before 1.13 or
none, a file that was read is tidied into one with the same words in the same order and in specs of
the same kind, and with the same imports, none of them more often than before. -/
theorem SourceFile.tidy_keeps_content {src : String} {f : SourceFile} {opts : Options}
    (read : SourceFile.parse src = .ok f) (plain : opts.extra = false)
    (old : ∀ v ∈ opts.lang, v.major < 1 ∨ v.major = 1 ∧ v.minor < 13) :
    ∃ f', (SourceFile.tidy opts).run f = .ok () f' ∧ f'.content = f.content ∧
      ∀ i, (i ∈ f'.imports ↔ i ∈ f.imports) ∧ f'.imports.count i ≤ f.imports.count i := by
  obtain ⟨cover, wellKinded⟩ := SourceFile.over_of_parse read
  obtain ⟨_, f', run, keeps⟩ := SourceFile.tidy_yields opts cover
  have kept := keeps (Tidy.faithful_of_lang plain old)
  exact ⟨f', run, kept.content, kept.imports wellKinded.parts⟩

/-- What a source is tidied into may be found by evaluation. -/
theorem SourceFile.exists_of_tidied (src : String) (opts : Options)
    {p : SourceFile → SourceFile → Bool} {b : Bool}
    (result : ((SourceFile.parse src).toOption.bind fun f => EStateM.run' (do
      SourceFile.tidy opts
      return p f (← get)) f) = some b) :
    ∃ f f', SourceFile.parse src = .ok f ∧ (SourceFile.tidy opts).run f = .ok () f' ∧
      p f f' = b := by
  cases read : SourceFile.parse src with
  | error e =>
    rw [read] at result
    nomatch result
  | ok f =>
    obtain ⟨_, f', run, -⟩ := tidy_yields opts (over_of_parse read).1
    change (SourceFile.tidy opts).run f = _ at run
    rw [read] at result
    change EStateM.run' _ f = _ at result
    delta EStateM.run' at result
    rw [EStateM.run_bind, run] at result
    exact ⟨f, f', rfl, run, Option.some.inj result⟩

/-- A group that is gathered and sorted with an import repeated, declarations that are merged, and
one that becomes an assignment. -/
theorem SourceFile.tidy_keeps_content_of_groups :
    ∃ f f', SourceFile.parse
        "package p\nimport (\n\"x.y/z\"\n\"os\"\n\"os\"\n)
var a = 1\nvar b = 07\nfunc g() \x7b var c = a \x7d\n" = .ok f ∧
      (SourceFile.tidy ⟨some ⟨1, 12⟩, false, none, false, none⟩).run f = .ok () f' ∧
      f'.content = f.content ∧
      ∀ i, (i ∈ f'.imports ↔ i ∈ f.imports) ∧ f'.imports.count i ≤ f.imports.count i := by
  generalize source : SourceFile.parse _ = parsed
  have accepted : parsed.isOk := by
    rw [← source]
    decide +kernel
  cases parsed with
  | error e => nomatch accepted
  | ok f =>
    have old : ∀ v ∈ (Options.mk (some ⟨1, 12⟩) false none false none).lang,
        v.major < 1 ∨ v.major = 1 ∧ v.minor < 13 := by simp
    obtain ⟨f', tidied⟩ := SourceFile.tidy_keeps_content source rfl old
    exact ⟨f, f', rfl, tidied⟩

end GoLayout
