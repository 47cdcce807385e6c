import GoLayout.Proofs.Grammar.File
import GoLayout.Proofs.Tidy.Imports
import GoLayout.Tidy
import Mathlib.Data.Prod.Basic

/-!
The content of a file, and how tidying a single declaration keeps it. A file is taken as the list of
its parts, the specs of its declarations and its functions, so that what matters is not how specs
are grouped. Content are the words of each part in order, with the kind of a spec; imports count by
name and path only, and a repetition of one may be dropped.
-/

namespace GoLayout

variable {n : Nat}

/-- A spec with the kind of its declaration, or a function. -/
inductive Part where
  | spec (kind : DeclKind) (spec : Spec)
  | func (decl : FuncDecl)

namespace Part

/-- The words of a part with the kind of a spec. Imports are not looked at. -/
def content? : Part → Option (Option DeclKind × List Word)
  | .spec kind s => if kind = .imports then none else some (some kind, s.words)
  | .func f => some (none, f.words)

/-- The name and the path of an import. -/
def import? : Part → Option (String × String)
  | .spec _ s => s.import?.map fun i => (i.nameText, i.path.unquoted)
  | .func _ => none

/-- In a declaration of imports stand imports. -/
def WellKinded : Part → Prop
  | .spec kind s => kind = .imports → s.IsImport
  | .func _ => True

end Part

/-- The parts of a declaration. -/
def Decl.parts : Decl → List Part
  | .gen d => d.specs.map (.spec d.kind)
  | .func f => [.func f]

namespace SourceFile

def parts (f : SourceFile) : List Part := f.decls.flatMap Decl.parts

/-- What the declarations of a file say, imports apart. -/
def content (f : SourceFile) : List (Option DeclKind × List Word) := f.parts.filterMap Part.content?

/-- What a file imports. -/
def imports (f : SourceFile) : List (String × String) := f.parts.filterMap Part.import?

end SourceFile

/-! ### Lists of parts with the same content -/

/-- The second list of parts has the content of the first, and the same imports, none of them more
often. -/
structure Keeps (before after : List Part) : Prop where
  content : after.filterMap Part.content? = before.filterMap Part.content?
  wellKinded : (∀ p ∈ before, p.WellKinded) → ∀ p ∈ after, p.WellKinded
  imports : (∀ p ∈ before, p.WellKinded) →
    Thins (before.filterMap Part.import?) (after.filterMap Part.import?)

namespace Keeps

variable {ps ps' ps'' : List Part}

theorem refl (ps : List Part) : Keeps ps ps := ⟨rfl, id, fun _ => .refl _⟩

theorem trans (first : Keeps ps ps') (second : Keeps ps' ps'') : Keeps ps ps'' :=
  ⟨second.content.trans first.content, fun h => second.wellKinded (first.wellKinded h),
    fun h => (first.imports h).trans (second.imports (first.wellKinded h))⟩

theorem append {qs qs' : List Part} (left : Keeps ps ps') (right : Keeps qs qs') :
    Keeps (ps ++ qs) (ps' ++ qs') := by
  refine ⟨?_, fun h => ?_, fun h => ?_⟩
  · rw [List.filterMap_append, List.filterMap_append, left.content, right.content]
  · obtain ⟨ofLeft, ofRight⟩ := List.forall_mem_append.mp h
    exact List.forall_mem_append.mpr ⟨left.wellKinded ofLeft, right.wellKinded ofRight⟩
  · obtain ⟨ofLeft, ofRight⟩ := List.forall_mem_append.mp h
    rw [List.filterMap_append, List.filterMap_append]
    exact (left.imports ofLeft).append (right.imports ofRight)

/-- Specs that look alike have the same content. -/
theorem of_views {kind : DeclKind} {specs specs' : List Spec}
    (same : specs'.map Spec.view = specs.map Spec.view) :
    Keeps (specs.map (.spec kind)) (specs'.map (.spec kind)) := by
  have content (l : List Spec) : (l.map (.spec kind)).filterMap Part.content? =
      (l.map Spec.view).filterMap fun v => if kind = .imports then none else some (some kind, v.2) := by
    rw [List.filterMap_map, List.filterMap_map]
    rfl
  have imports (l : List Spec) : (l.map (.spec kind)).filterMap Part.import? =
      (l.map Spec.view).filterMap fun v => v.1.map fun i => (i.nameText, i.path.unquoted) := by
    rw [List.filterMap_map, List.filterMap_map]
    rfl
  refine ⟨?_, fun h => ?_, fun _ => ?_⟩
  · rw [content, content, same]
  · simp only [List.forall_mem_map] at h ⊢
    intro s' mem isImports
    obtain ⟨s, found, alike⟩ : ∃ s ∈ specs, s.view = s'.view :=
      List.mem_map.mp (same ▸ List.mem_map_of_mem mem)
    have isImport : s.import? = s'.import? := congrArg Prod.fst alike
    rw [Spec.isImport_iff, ← isImport]
    exact Spec.isImport_iff.mp (h s found isImports)
  · rw [imports, imports, same]
    exact .refl _

theorem filterMap_imports {specs : List Spec} (h : ∀ s ∈ specs, s.IsImport) :
    (specs.map (.spec .imports)).filterMap Part.import? =
      (specs.map Imports.sortKey).map Prod.swap := by
  induction specs with
  | nil => rfl
  | cons s rest ih =>
    obtain ⟨⟨i, rfl⟩, behind⟩ := List.forall_mem_cons.mp h
    exact congrArg ((i.nameText, i.path.unquoted) :: ·) (ih behind)

/-- Imports that are gathered keep their names and paths. -/
theorem of_thins {specs specs' : List Spec}
    (thins : Thins (specs.map Imports.sortKey) (specs'.map Imports.sortKey))
    (isImport : (∀ s ∈ specs, s.IsImport) → ∀ s ∈ specs', s.IsImport) :
    Keeps (specs.map (.spec .imports)) (specs'.map (.spec .imports)) := by
  have content (l : List Spec) : (l.map (.spec .imports)).filterMap Part.content? = [] := by
    simp [Part.content?]
  have wellKinded (l : List Spec) :
      (∀ p ∈ l.map (.spec .imports), Part.WellKinded p) ↔ ∀ s ∈ l, s.IsImport := by
    simp [Part.WellKinded]
  refine ⟨?_, fun h => ?_, fun h => ?_⟩
  · rw [content, content]
  · rw [wellKinded] at h ⊢
    exact isImport h
  · rw [wellKinded] at h
    rw [filterMap_imports h, filterMap_imports (isImport h)]
    exact thins.map Prod.swap_injective Prod.swap_surjective

end Keeps

/-! ### Single declarations -/

/-- A group that lies within the text. The parenthesis that closes it may stand behind the last
byte, where a comment ends. -/
structure GenDecl.Within (n : Nat) (d : GenDecl) : Prop where
  kwPos : d.kwPos.Within n
  specs : Spec.EverywhereAll (Span.Within n) d.specs
  rparen : ∀ s ∈ d.rparen, s.stop ≤ n

/-- A declaration at the top of a file that lies within the text. -/
def Decl.Within (n : Nat) : Decl → Prop
  | .gen d => d.Within n
  | .func f => f.Everywhere (Span.Within n)

theorem Decl.within_of_everywhere {d : Decl} (h : d.Everywhere (Span.Within n)) : d.Within n := by
  cases d with
  | gen d =>
    obtain ⟨_, _, _, _, _, _⟩ := d
    obtain ⟨ofKw, -, ofSpecs, ofRight⟩ := h
    exact ⟨ofKw, ofSpecs, fun s mem => (ofRight s mem).2⟩
  | func f => exact h

theorem Decl.Within.stop_le {d : Decl} (h : d.Within n) : d.stop ≤ n := by
  cases d with
  | gen d => exact GenDecl.stop_le h.kwPos h.specs h.rparen
  | func f => exact FuncDecl.stop_le h

namespace Tidy

variable {opts : Options} {comments : List CommentGroup} {d : Decl}

theorem gatherImports_safe (h : d.Within n) :
    (gatherImports opts d).Safe n fun d' => d'.Within n ∧ Keeps d.parts d'.parts := by
  cases d with
  | func f => exact .pure ⟨h, .refl _⟩
  | gen d =>
    unfold gatherImports
    dsimp only
    split
    · rename_i isGroup
      have isImports : d.kind = .imports := GenDecl.kind_of_isImportGroup isGroup
      have fits : ∀ s ∈ d.specs, s.Fits n (∀ s ∈ d.specs, s.IsImport) := fun s mem =>
        ⟨Spec.everywhereAll_iff.mp h.specs s mem, fun all => all s mem⟩
      refine .bind (Imports.gather_safe h.kwPos fits) ?_
      rintro _ ⟨specs, rfl, fits', thins⟩
      refine .pure ⟨⟨h.kwPos, ?_, h.rparen⟩, ?_⟩
      · exact Spec.everywhereAll_iff.mpr fun s mem => (fits' s mem).everywhere
      · simp only [Decl.parts, isImports]
        exact .of_thins thins fun all s mem => (fits' s mem).isImport all
    · exact .pure ⟨h, .refl _⟩

theorem flatten_safe (h : d.Within n) :
    (Tidy.flatten comments d).Safe n fun d' => d'.Within n ∧ Keeps d.parts d'.parts := by
  cases d with
  | func f => exact .pure ⟨h, .refl _⟩
  | gen d =>
    have pos : 0 < n := Nat.zero_lt_of_lt h.kwPos.1
    refine .bind (GenDecl.flatten_safe comments d pos h.kwPos h.specs) ?_
    rintro _ (rfl | ⟨-, kwPos, within, rfl⟩)
    · exact .pure ⟨h, .refl _⟩
    · exact .pure ⟨⟨within, h.specs, nofun⟩, .refl _⟩

/-- At the top of a file, the parenthesis that closes a group is looked at by its line only. -/
theorem onDecl_holds {d : GenDecl} (h : d.Within n) :
    (judgement n).Holds (onDecl comments d) fun leave =>
      ∀ x, (judgement n).Holds (leave x) fun y => y.kind = x.kind ∧ y.specs = x.specs := by
  have pos : 0 < n := Nat.zero_lt_of_lt h.kwPos.1
  refine (judgement n).bind (holds_lift (GenDecl.flatten_safe comments d pos h.kwPos h.specs)) ?_
  exact fun _ _ => (judgement n).pure fun _ => (judgement n).pure ⟨rfl, rfl⟩

theorem visit_holds (h : d.Within n) :
    (judgement n).Holds (d.visit (visitor opts comments)) fun d' =>
      Faithful opts → Keeps d.parts d'.parts := by
  cases d with
  | func f =>
    have pos : 0 < n := Nat.zero_lt_of_lt h.1.1
    refine (judgement n).bind (f.visit_kept (visitor_sound pos) h) fun f' kept => ?_
    refine (judgement n).pure fun faithful => ⟨?_, fun _ => ?_, fun _ => .refl _⟩
    · simp only [Decl.parts, List.filterMap_cons, Part.content?, kept.2 faithful]
    · simp [Decl.parts, Part.WellKinded]
  | gen d =>
    -- `GenDecl.visit_kept` does not apply: a merged group may close at the very end of the text,
    -- where no token begins.
    have pos : 0 < n := Nat.zero_lt_of_lt h.kwPos.1
    obtain ⟨doc, kwPos, kind, lparen, specs, rparen⟩ := d
    have visited : (judgement n).Holds
        (GenDecl.visit (visitor opts comments) ⟨doc, kwPos, kind, lparen, specs, rparen⟩) fun d' =>
          d'.kind = kind ∧ (Faithful opts → d'.specs.map Spec.view = specs.map Spec.view) := by
      refine (judgement n).bind (onDecl_holds h) fun leave done => ?_
      refine (judgement n).bind (Spec.visitAll_kept (visitor_sound pos) specs h.specs) ?_
      intro specs' kept depth
      refine (done _ depth).mono fun r ⟨sameKind, sameSpecs⟩ => ⟨sameKind, fun faithful => ?_⟩
      rw [sameSpecs]
      exact kept.2 faithful
    refine (judgement n).bind visited fun d' ⟨sameKind, sameViews⟩ => ?_
    refine (judgement n).pure fun faithful => ?_
    simp only [Decl.parts, sameKind]
    exact .of_views (sameViews faithful)

/-- Tidying the nodes of a declaration succeeds. -/
theorem nodes_safe (h : d.Within n) :
    (nodes opts comments d).Safe n fun d' => Faithful opts → Keeps d.parts d'.parts :=
  .map (visit_holds h 0)

theorem finish_safe {m : Merged} (h : m.decl.Within n) :
    (finish opts comments m).Safe n fun d' => Faithful opts → Keeps m.decl.parts d'.parts := by
  have nodes_safe : ∀ d : Decl, d.Within n ∧ Keeps m.decl.parts d.parts →
      (nodes opts comments d).Safe n fun d' => Faithful opts → Keeps m.decl.parts d'.parts :=
    fun d ⟨within, kept⟩ => (nodes_safe within).mono fun d' kept' faithful =>
      kept.trans (kept' faithful)
  unfold finish
  split
  · exact .bind (gatherImports_safe h) nodes_safe
  · exact .bind (.pure ⟨h, .refl _⟩) nodes_safe

end Tidy

end GoLayout
