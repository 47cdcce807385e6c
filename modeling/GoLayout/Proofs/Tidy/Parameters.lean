import GoLayout.Proofs.Tree.Alike
import GoLayout.Tidy.Nodes
import Mathlib.Data.List.Chain
import Mathlib.Data.List.Forall2

/-!
Merging of parameters. The fields of a list fall into runs, each of a field that is kept and those
merged into it. What shares has names and a type only, so the names and types that a list stands
for stay, and of the fields that are kept no two neighbours share again.
-/

namespace GoLayout

variable {lines : LineTable}

/-! ### Fields that share a type -/

namespace TypeExpr

theorem alike_refl (t : TypeExpr) : t.alike t = true := alike_iff.mpr rfl

theorem isPlainName_of_alike {a b : TypeExpr} (alike : a.alike b = true)
    (plain : a.isPlainName = true) : b.isPlainName = true := by
  have same := alike_iff.mp alike
  unfold isPlainName at plain
  split at plain
  · cases b with
    | named qualifier name =>
      cases qualifier with
      | none => rfl
      | some _ => nomatch same
    | _ => nomatch same
  · nomatch plain

end TypeExpr

namespace Field

theorem isBare_iff {f : Field} : f.isBare = true ↔
    f.doc = none ∧ f.comment = none ∧ f.names ≠ [] ∧ f.tag = none := by
  simp [isBare, and_assoc]

theorem shares_iff {a b : Field} : a.shares lines b = true ↔
    a.isBare = true ∧ b.isBare = true ∧ lines.line a.pos = lines.line b.pos ∧
      a.type.isPlainName = true ∧ a.type.alike b.type = true := by
  simp [shares, and_assoc]

/-! ### Parameters -/

/-- What a field stands for: its type under each of its names, or under none. -/
def params (f : Field) : List (Option Ident × TypeExpr) :=
  match f.names with
  | [] => [(none, f.type)]
  | names => names.map fun name => (some name, f.type)

/-- One name, with types that are alike. -/
def SameParam (p q : Option Ident × TypeExpr) : Prop := p.1 = q.1 ∧ p.2.alike q.2 = true

theorem sameParam_refl (p : Option Ident × TypeExpr) : SameParam p p := ⟨rfl, p.2.alike_refl⟩

theorem params_of_names {f : Field} (named : f.names ≠ []) :
    f.params = f.names.map fun name => (some name, f.type) := by
  unfold params
  split
  · contradiction
  · rfl

/-- Names under types that are alike. -/
theorem sameParam_map {a b : TypeExpr} (alike : a.alike b = true) (names : List Ident) :
    List.Forall₂ SameParam (names.map fun name => (some name, b))
      (names.map fun name => (some name, a)) := by
  refine List.forall₂_map_left_iff.mpr (List.forall₂_map_right_iff.mpr ?_)
  have flipped : b.alike a = true := TypeExpr.alike_iff.mpr (TypeExpr.alike_iff.mp alike).symm
  exact List.forall₂_same.mpr fun _ _ => ⟨rfl, flipped⟩

/-! ### Runs -/

/-- A field that is kept, and those behind it that are merged into it. -/
structure Run where
  kept : Field
  merged : List Field

namespace Run

def fields (r : Run) : List Field := r.kept :: r.merged

/-- The field with the names of all. -/
def field (r : Run) : Field :=
  { r.kept with names := r.kept.names ++ r.merged.flatMap (·.names) }

/-- All that is merged shares with the field that is kept. -/
def Fits (lines : LineTable) (r : Run) : Prop := ∀ f ∈ r.merged, r.kept.shares lines f = true

variable {r r' : Run}

theorem field_of_merged_eq_nil (alone : r.merged = []) : r.field = r.kept := by
  obtain ⟨⟨_, _, _, _, _⟩, _⟩ := r
  obtain rfl := alone
  simp [field]

theorem Fits.isBare (fits : r.Fits lines) (more : r.merged ≠ []) : r.kept.isBare = true := by
  obtain ⟨f, mem⟩ := List.exists_mem_of_ne_nil _ more
  exact (shares_iff.mp (fits f mem)).1

/-- Where anything is merged, all fields of the run have names and a type only, on one line. -/
theorem Fits.forall_fields (fits : r.Fits lines) (more : r.merged ≠ []) :
    ∀ f ∈ r.fields, f.isBare = true ∧ lines.line f.pos = lines.line r.kept.pos := by
  refine List.forall_mem_cons.mpr ⟨⟨fits.isBare more, rfl⟩, fun f mem => ?_⟩
  obtain ⟨-, bare, line, -⟩ := shares_iff.mp (fits f mem)
  exact ⟨bare, line.symm⟩

/-- The names that are added stand behind others, so they change nothing about what shares. -/
theorem Fits.field_eq (fits : r.Fits lines) :
    r.field.isBare = r.kept.isBare ∧ r.field.pos = r.kept.pos := by
  by_cases alone : r.merged = []
  · rw [field_of_merged_eq_nil alone]
    exact ⟨rfl, rfl⟩
  · obtain ⟨-, -, named, -⟩ := isBare_iff.mp (fits.isBare alone)
    obtain ⟨⟨doc, names, type, tag, comment⟩, merged⟩ := r
    obtain ⟨name, names, rfl⟩ := List.exists_cons_of_ne_nil named
    exact ⟨rfl, rfl⟩

theorem Fits.shares_field (fits : r.Fits lines) (fits' : r'.Fits lines) :
    r.field.shares lines r'.field = r.kept.shares lines r'.kept := by
  unfold shares
  rw [fits.field_eq.1, fits.field_eq.2, fits'.field_eq.1, fits'.field_eq.2]
  rfl

/-- The fields of a run and the one they become have the same parameters. -/
theorem Fits.params (fits : r.Fits lines) :
    List.Forall₂ SameParam (r.fields.flatMap Field.params) r.field.params := by
  by_cases alone : r.merged = []
  · rw [field_of_merged_eq_nil alone, fields, alone, List.flatMap_singleton]
    exact List.forall₂_same.mpr fun p _ => sameParam_refl p
  · obtain ⟨-, -, named, -⟩ := isBare_iff.mp (fits.isBare alone)
    have named' : r.field.names ≠ [] := fun none => named (List.append_eq_nil_iff.mp none).1
    have behind : ∀ fs : List Field, (∀ f ∈ fs, r.kept.shares lines f = true) →
        List.Forall₂ SameParam (fs.flatMap Field.params)
          ((fs.flatMap (·.names)).map fun name => (some name, r.kept.type)) := by
      intro fs share
      induction fs with
      | nil => exact .nil
      | cons f fs ih =>
        obtain ⟨here, others⟩ := List.forall_mem_cons.mp share
        obtain ⟨-, bare, -, -, alike⟩ := shares_iff.mp here
        rw [List.flatMap_cons, List.flatMap_cons, List.map_append,
          params_of_names (isBare_iff.mp bare).2.2.1]
        exact List.rel_append (sameParam_map alike f.names) (ih others)
    rw [params_of_names named', fields, List.flatMap_cons, params_of_names named, field,
      List.map_append]
    exact List.rel_append (sameParam_map r.kept.type.alike_refl _) (behind _ fits)

end Run

/-- The runs of fields, the first of which goes on behind `r`. -/
def runs (lines : LineTable) : (r : Run) → List Field → List Run
  | r, [] => [r]
  | r, f :: rest =>
    if r.kept.shares lines f then runs lines ⟨r.kept, r.merged ++ [f]⟩ rest
    else r :: runs lines ⟨f, []⟩ rest

section Runs

variable (r : Run) (fs : List Field)

theorem flatMap_runs : (runs lines r fs).flatMap Run.fields = r.fields ++ fs := by
  fun_induction runs lines r fs with
  | case1 r => simp
  | case2 r f rest _ ih => simpa [Run.fields] using ih
  | case3 r f rest _ ih => simpa [Run.fields] using ih

/-- Merging makes one field of each run. -/
theorem mergeMarked_sharing :
    mergeMarked r.field fs (sharing lines r.kept fs) = (runs lines r fs).map Run.field := by
  fun_induction runs lines r fs with
  | case1 r => rfl
  | case2 r f rest share ih =>
    rw [← ih, sharing, if_pos share, mergeMarked]
    simp [Run.field]
  | case3 r f rest apart ih =>
    rw [Run.field_of_merged_eq_nil rfl] at ih
    rw [List.map_cons, ← ih, sharing, if_neg apart, mergeMarked]

theorem runs_fit (fits : r.Fits lines) : ∀ r' ∈ runs lines r fs, r'.Fits lines := by
  fun_induction runs lines r fs with
  | case1 r => simpa using fits
  | case2 r f rest share ih =>
    refine ih fun g mem => ?_
    rcases List.mem_append.mp mem with before | last
    · exact fits g before
    · exact List.mem_singleton.mp last ▸ share
  | case3 r f rest apart ih => exact List.forall_mem_cons.mpr ⟨fits, ih nofun⟩

theorem exists_runs_eq_cons : ∃ r' rest, runs lines r fs = r' :: rest ∧ r'.kept = r.kept := by
  fun_induction runs lines r fs with
  | case1 r => exact ⟨r, [], rfl, rfl⟩
  | case2 r f rest share ih => exact ih
  | case3 r f rest apart ih => exact ⟨r, _, rfl, rfl⟩

/-- A run ends where the next field does not share. -/
theorem isChain_runs :
    (runs lines r fs).IsChain fun a b => a.kept.shares lines b.kept = false := by
  fun_induction runs lines r fs with
  | case1 r => exact .singleton r
  | case2 r f rest share ih => exact ih
  | case3 r f rest apart ih =>
    obtain ⟨r', rest', starts, same⟩ := @exists_runs_eq_cons lines ⟨f, []⟩ rest
    rw [starts] at ih ⊢
    refine .cons_cons ?_ ih
    rw [same]
    exact Bool.eq_false_iff.mpr apart

end Runs

/-- Where no neighbours share, nothing is merged. -/
theorem mergeMarked_of_apart {last : Field} {fs : List Field}
    (apart : (last :: fs).IsChain fun a b => a.shares lines b = false) :
    mergeMarked last fs (sharing lines last fs) = last :: fs := by
  induction fs generalizing last with
  | nil => rfl
  | cons f fs ih =>
    obtain ⟨here, behind⟩ := List.isChain_cons_cons.mp apart
    rw [sharing, if_neg (Bool.eq_false_iff.mp here), mergeMarked, ih behind]

theorem mergeMarked_nil (last : Field) (fs : List Field) : mergeMarked last fs [] = last :: fs := by
  cases fs <;> rfl

/-- The fields that are marked have plain names for types. -/
def PlainMarks (fs : List Field) (marks : List Bool) : Prop :=
  ∀ p ∈ fs.zip marks, p.2 = true → p.1.type.isPlainName = true

theorem plainMarks_nil (fs : List Field) : PlainMarks fs [] := by
  simp [PlainMarks]

theorem plainMarks_sharing (last : Field) (fs : List Field) :
    PlainMarks fs (sharing lines last fs) := by
  induction fs generalizing last with
  | nil => exact nofun
  | cons f fs ih =>
    by_cases share : last.shares lines f = true
    · obtain ⟨-, -, -, plain, alike⟩ := shares_iff.mp share
      rw [sharing, if_pos share]
      exact List.forall_mem_cons.mpr ⟨fun _ => TypeExpr.isPlainName_of_alike alike plain, ih last⟩
    · rw [sharing, if_neg share]
      exact List.forall_mem_cons.mpr ⟨nofun, ih f⟩

end Field

namespace FieldList

def params (l : FieldList) : List (Option Ident × TypeExpr) := l.fields.flatMap Field.params

/-- The runs of a list. -/
def runs (lines : LineTable) (l : FieldList) : List Field.Run :=
  match l.fields with
  | [] => []
  | f :: rest => Field.runs lines ⟨f, []⟩ rest

variable (lines) (l : FieldList)

theorem flatMap_runs : (l.runs lines).flatMap Field.Run.fields = l.fields := by
  obtain ⟨_, fields⟩ := l
  cases fields with
  | nil => rfl
  | cons f rest => exact Field.flatMap_runs _ _

theorem runs_fit : ∀ r ∈ l.runs lines, r.Fits lines := by
  obtain ⟨_, fields⟩ := l
  cases fields with
  | nil => simp [runs]
  | cons f rest => exact Field.runs_fit _ _ (by simp [Field.Run.Fits])

theorem isChain_runs : (l.runs lines).IsChain fun a b => a.kept.shares lines b.kept = false := by
  obtain ⟨_, fields⟩ := l
  cases fields with
  | nil => exact .nil
  | cons f rest => exact Field.isChain_runs _ _

theorem merge_eq : l.merge lines = { l with fields := (l.runs lines).map Field.Run.field } := by
  obtain ⟨brackets, fields⟩ := l
  cases fields with
  | nil => rfl
  | cons f rest =>
    have merged := @Field.mergeMarked_sharing lines ⟨f, []⟩ rest
    rw [Field.Run.field_of_merged_eq_nil rfl] at merged
    simp only [merge, mergeMarked, sharing, runs, merged]

/-- Merging keeps what a list stands for. -/
theorem merge_params : List.Forall₂ Field.SameParam l.params (l.merge lines).params := by
  have each : ∀ rs : List Field.Run, (∀ r ∈ rs, r.Fits lines) →
      List.Forall₂ Field.SameParam ((rs.flatMap Field.Run.fields).flatMap Field.params)
        ((rs.map Field.Run.field).flatMap Field.params) := by
    intro rs fit
    induction rs with
    | nil => exact .nil
    | cons r rs ih =>
      obtain ⟨here, others⟩ := List.forall_mem_cons.mp fit
      rw [List.flatMap_cons, List.flatMap_append, List.map_cons, List.flatMap_cons]
      exact List.rel_append here.params (ih others)
  have all := each _ (l.runs_fit lines)
  rw [flatMap_runs] at all
  rw [params, params, merge_eq]
  exact all

variable {lines l} in
/-- A list in which no neighbours share is left as it is. -/
theorem merge_of_apart (apart : l.fields.IsChain fun a b => a.shares lines b = false) :
    l.merge lines = l := by
  obtain ⟨brackets, fields⟩ := l
  cases fields with
  | nil => rfl
  | cons f rest => simp only [merge, mergeMarked, sharing, Field.mergeMarked_of_apart apart]

/-- Of fields that are merged, no two neighbours share. -/
theorem isChain_merge : (l.merge lines).fields.IsChain fun a b => a.shares lines b = false := by
  rw [merge_eq]
  refine (List.isChain_map Field.Run.field).mpr ((l.isChain_runs lines).imp_of_mem_imp ?_)
  intro r r' mem mem' refused
  rwa [(l.runs_fit lines r mem).shares_field (l.runs_fit lines r' mem')]

end FieldList

/-! ### Merging in a visit -/

namespace Tidy

variable {opts : Options} {comments : List CommentGroup}

theorem visit_plainName {t : TypeExpr} (plain : t.isPlainName = true) :
    t.visit (visitor opts comments) = pure t := by
  unfold TypeExpr.isPlainName at plain
  split at plain
  · rw [TypeExpr.visit]
    rfl
  · nomatch plain

theorem visitAll_mergeMarked {last : Field} {fs : List Field} {marks : List Bool}
    (plain : Field.PlainMarks fs marks) :
    Field.visitAll (visitor opts comments) (Field.mergeMarked last fs marks) = do
      let last ← last.visit (visitor opts comments)
      let fs ← Field.visitAll (visitor opts comments) fs
      return Field.mergeMarked last fs marks := by
  induction fs generalizing last marks with
  | nil => simp [Field.visitAll, Field.mergeMarked]
  | cons f rest ih =>
    cases marks with
    | nil => simp [Field.visitAll, Field.mergeMarked_nil]
    | cons mark marks =>
      obtain ⟨here, behind⟩ := List.forall_mem_cons.mp plain
      cases mark with
      | false => simp [Field.visitAll, Field.mergeMarked, ih behind]
      | true =>
        obtain ⟨doc, names, type, tag, comment⟩ := last
        obtain ⟨_, names', type', _, _⟩ := f
        simp [Field.visit, Field.visitAll, visit_plainName (here rfl), Field.mergeMarked, ih behind]

/-- Merging on leaving a list what was to be merged on entering it is merging first. -/
theorem visit_merge (l : FieldList) :
    (l.merge lines).visit (visitor opts comments) =
      (·.mergeMarked (l.sharing lines)) <$> l.visit (visitor opts comments) := by
  obtain ⟨brackets, fields⟩ := l
  cases fields with
  | nil => simp [FieldList.merge, FieldList.mergeMarked, FieldList.visit, Field.visitAll]
  | cons f rest =>
    simp [FieldList.merge, FieldList.mergeMarked, FieldList.sharing, FieldList.visit,
      visitAll_mergeMarked (Field.plainMarks_sharing f rest), Field.visitAll]

/-- What is to be merged of a list that may be missing. -/
def marksOpt (lines : LineTable) : Option FieldList → List Bool
  | none => []
  | some l => l.sharing lines

theorem visitOpt_merge (o : Option FieldList) :
    FieldList.visitOpt (visitor opts comments) (o.map (·.merge lines)) =
      (·.map (·.mergeMarked (marksOpt lines o))) <$> FieldList.visitOpt (visitor opts comments) o := by
  cases o with
  | none => simp [FieldList.visitOpt]
  | some l => simp [FieldList.visitOpt, visit_merge, marksOpt]

theorem sharing_eq (extra : opts.extra = true) (l : FieldList) :
    sharing opts l = l.sharing <$> get := by
  unfold sharing
  simp [extra]

theorem sharingOpt_eq (extra : opts.extra = true) (o : Option FieldList) :
    sharingOpt opts o = (marksOpt · o) <$> get := by
  cases o with
  | none => rfl
  | some l => exact sharing_eq extra l

theorem onSig_eq (extra : opts.extra = true) (s : Signature) : onSig opts s = do
    let lines ← (get : Relining LineTable)
    return fun s' => pure ⟨s'.params.mergeMarked (s.params.sharing lines),
      s'.results.map (·.mergeMarked (marksOpt lines s.results))⟩ := by
  unfold onSig
  rw [sharing_eq extra, sharingOpt_eq extra]
  rfl

theorem onFunc_eq (extra : opts.extra = true) (f : FuncDecl) : onFunc opts f = do
    let lines ← (get : Relining LineTable)
    return fun f' => pure { f' with
      receiver := f'.receiver.map (·.mergeMarked (marksOpt lines f.receiver))
      typeParams := f'.typeParams.map (·.mergeMarked (marksOpt lines f.typeParams)) } := by
  unfold onFunc
  rw [sharingOpt_eq extra, sharingOpt_eq extra]
  rfl

variable (opts comments) in
/-- Where fields are merged: in the lists of a signature and of a function and among the elements of
an interface, by the lines at hand when these are entered. It is as if the merged lists had been
there before. The fields of a struct are visited as they are. -/
structure MergesFields : Prop where
  sig : ∀ s : Signature, s.visit (visitor opts comments) = do
    let lines ← (get : Relining LineTable)
    let params ← (s.params.merge lines).visit (visitor opts comments)
    let results ← FieldList.visitOpt (visitor opts comments) (s.results.map (·.merge lines))
    return ⟨params, results⟩
  func : ∀ f : FuncDecl, f.visit (visitor opts comments) = do
    let lines ← (get : Relining LineTable)
    let receiver ← FieldList.visitOpt (visitor opts comments) (f.receiver.map (·.merge lines))
    let typeParams ← FieldList.visitOpt (visitor opts comments) (f.typeParams.map (·.merge lines))
    let sig ← f.sig.visit (visitor opts comments)
    let body ← Block.visitBody (visitor opts comments) f.body
    return { f with receiver, typeParams, sig, body }
  interface : ∀ pos elements,
    (TypeExpr.interface pos elements).visit (visitor opts comments) = do
      let lines ← (get : Relining LineTable)
      return .interface pos (← (elements.merge lines).visit (visitor opts comments))
  struct : ∀ pos fields, (TypeExpr.struct pos fields).visit (visitor opts comments) = do
    return .struct pos (← fields.visit (visitor opts comments))

theorem mergesFields (extra : opts.extra = true) : MergesFields opts comments where
  sig s := by
    obtain ⟨params, results⟩ := s
    rw [Signature.visit]
    change onSig opts _ >>= _ = _
    rw [onSig_eq extra]
    simp [visit_merge, visitOpt_merge]
  func f := by
    rw [FuncDecl.visit]
    change onFunc opts _ >>= _ = _
    rw [onFunc_eq extra]
    simp [visitOpt_merge]
  interface pos elements := by
    rw [TypeExpr.visit]
    change onType opts (.interface pos elements) >>= _ = _
    unfold onType
    dsimp only
    rw [sharing_eq extra]
    simp [visit_merge]
  struct pos fields := by
    rw [TypeExpr.visit]
    rfl

end Tidy

end GoLayout
