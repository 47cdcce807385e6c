import GoLayout.Grammar.Type
import GoLayout.Proofs.Order.Reader

/-!
The rules for types, signatures and their fields read landmarks in their order.
-/

namespace GoLayout.Grammar

variable {P : Span → Prop} {ls : List Landmark} {K : TokenKind → Prop} {g : Readers}

/-- Readers that read landmarks in their order. -/
structure Readers.Marks (P : Span → Prop) (g : Readers) : Prop where
  type : ∀ {ls K}, Passes P (Passed P ls) K (g.read .type) fun t => Passed P (ls ++ t.landmarks)
  binary : ∀ min {ls K},
    Passes P (Passed P ls) K (g.read (.binary min)) fun e => Passed P (ls ++ e.landmarks)
  unary : ∀ {ls K}, Passes P (Passed P ls) K (g.read .unary) fun e => Passed P (ls ++ e.landmarks)
  elements : ∀ {ls K}, Passes P (Passed P ls) K (g.read .elements) fun e =>
    Passed P (ls ++ .token e.lbrace :: (Expr.landmarksAll e.list ++ [.token e.rbrace]))
  stmt : ∀ {ls K}, Passes P (Passed P ls) K (g.read .stmt) fun st => Passed P (ls ++ st.landmarks)
  ifStmt : ∀ {ls K}, Passes P (Passed P ls) K (g.read .ifStmt) fun st => Passed P (ls ++ st.landmarks)

namespace Readers.Marks

variable (marks : g.Marks P)

include marks

theorem expr : Passes P (Passed P ls) K g.expr fun e => Passed P (ls ++ e.landmarks) := marks.binary 1

theorem exprList_cons : Passes P (Passed P ls) K g.exprList fun es c =>
    es ≠ [] ∧ Passed P (ls ++ Expr.landmarksAll es) c := by
  simp only [Expr.landmarksAll_eq_flatMap]
  exact .sepBy_cons marks.expr _

theorem exprList : Passes P (Passed P ls) K g.exprList fun es =>
    Passed P (ls ++ Expr.landmarksAll es) :=
  marks.exprList_cons.mono fun _ _ passed => passed.2

theorem stmtList : Passes P (Passed P ls) K g.stmtList fun ss =>
    Passed P (ls ++ Stmt.landmarksAll ss) := by
  simp only [Stmt.landmarksAll_eq_flatMap]
  refine .many ?_ _
  intro ls K
  unfold stmtList.stmt? stmtList.skipSemis
  refine .bind (.bind (.skipSemis _) fun _ => .idle) fun _ => ?_
  refine .peek_bind fun k _ => ?_
  split
  · exact .done (by simp)
  · exact .done (by simp)
  · exact .done (by simp)
  · exact .done (by simp)
  · exact .bind marks.stmt fun st => .done (by simp)

theorem block : Passes P (Passed P ls) K g.block fun b => Passed P (ls ++ b.landmarks) := by
  refine .bind (.expectMark nofun) fun _ => .bind marks.stmtList fun stmts => ?_
  exact .bind (.expectMark nofun) fun _ => .done (by simp [Block.landmarks])

theorem body : Passes P (Passed P ls) K g.body fun b => Passed P (ls ++ b.landmarks) :=
  marks.block.enclosed

end Readers.Marks

theorem identList_passes : Passes P (Passed P ls) K g.identList fun names c =>
    names ≠ [] ∧ Passed P (ls ++ names.map Ident.landmark) c := by
  have passed : Passes P (Passed P ls) K g.identList fun names c =>
      names ≠ [] ∧ Passed P (ls ++ names.flatMap fun i => [i.landmark]) c := .sepBy_cons .ident _
  simpa only [List.map_eq_flatMap] using passed

/-! ### Parameters -/

theorem arrayFollows_passes {I : Cursor → Prop} : Passes P I K arrayFollows fun _ => I :=
  .get_bind fun _ => .idle

namespace Param

def landmarks : Param → List Landmark
  | .lone name => [name.landmark]
  | .typed name type => name.toList.map Ident.landmark ++ type.landmarks

theorem landmarks_type {p : Param} (h : ¬ p.isNamed) : p.type.landmarks = p.landmarks := by
  cases p with
  | lone name => rfl
  | typed name type =>
    cases name with
    | none => rfl
    | some name => exact absurd rfl h

theorem landmarks_field (names : List Ident) (type : TypeExpr) :
    (field names type).landmarks = names.map Ident.landmark ++ type.landmarks := by
  simp [field, Field.landmarks]

theorem namedFields_passes {I : Cursor → Prop} {lparen : Span} {pending : List Ident}
    {entries : List Param} : Passes P I K (namedFields lparen pending entries) fun fs c =>
      Field.landmarksAll fs = pending.map Ident.landmark ++ entries.flatMap landmarks ∧ I c := by
  fun_induction namedFields lparen pending entries generalizing K with
  | case1 => exact .pure fun _ holds => ⟨rfl, holds⟩
  | case2 => exact .failAt
  | case3 pending name rest ih =>
    refine ih.mono fun fs _ ⟨same, holds⟩ => ⟨?_, holds⟩
    simpa [landmarks] using same
  | case4 pending name type rest ih =>
    refine .bind ih fun fields => .pure fun _ ⟨same, holds⟩ => ⟨?_, holds⟩
    simp [Field.landmarksAll, landmarks_field, landmarks, same]
  | case5 => exact .failAt

theorem fields_passes {I : Cursor → Prop} {lparen : Span} {entries : List Param} :
    Passes P I K (fields lparen entries) fun fs c =>
      Field.landmarksAll fs = entries.flatMap landmarks ∧ I c := by
  unfold fields
  split
  · exact namedFields_passes
  · rename_i unnamed
    refine .pure fun _ holds => ⟨?_, holds⟩
    rw [Field.landmarksAll_eq_flatMap, List.flatMap_map]
    refine List.flatMap_congr fun p mem => ?_
    have alone : ¬ p.isNamed := fun named => unnamed (List.any_eq_true.mpr ⟨p, mem, named⟩)
    rw [landmarks_field, landmarks_type alone]
    rfl

end Param

section Rules

variable (marks : g.Marks P)

include marks

theorem constraint_passes : Passes P (Passed P ls) K (constraint g) fun t =>
    Passed P (ls ++ t.landmarks) := by
  have term {ls K} : Passes P (Passed P ls) K (constraintTerm g) fun t =>
      Passed P (ls ++ t.landmarks) := by
    refine .bind (.acceptMark nofun) fun o => ?_
    cases o with
    | none => exact .cast (by simp) marks.type
    | some _ => exact .bind marks.type fun t => .done (by simp [TypeExpr.landmarks])
  refine .bind (.sepBy_cons term _) fun terms => ?_
  split
  · exact .pure fun _ ⟨_, passed⟩ => by simpa using passed
  · refine .given fun some => ?_
    cases terms with
    | nil => exact absurd rfl some
    | cons t ts => exact .done (by simp [TypeExpr.landmarks, TypeExpr.landmarksAll_eq_flatMap])

theorem paramType_passes {typeParams : Bool} :
    Passes P (Passed P ls) K (paramType g typeParams) fun t => Passed P (ls ++ t.landmarks) := by
  unfold paramType
  split
  · exact constraint_passes marks
  · refine .bind (.acceptMark nofun) fun o => ?_
    cases o with
    | none => exact .cast (by simp) marks.type
    | some _ => exact .bind marks.type fun t => .done (by simp [TypeExpr.landmarks])

theorem param_passes {closer : Mark} {typeParams : Bool} :
    Passes P (Passed P ls) K (param g closer typeParams) fun p => Passed P (ls ++ p.landmarks) := by
  refine .peek_bind fun k _ => ?_
  split
  · refine .peekNext_bind fun next => ?_
    split
    · exact .bind .ident fun name => .done rfl
    · split
      · exact .bind marks.type fun t => .done rfl
      · refine .bind arrayFollows_passes fun _ => ?_
        split
        · exact .bind marks.type fun t => .done rfl
        · refine .bind .ident fun name => ?_
          exact .bind (paramType_passes marks) fun t => .done (by simp [Param.landmarks])
  · exact .bind (paramType_passes marks) fun t => .done rfl

theorem params_passes {opener closer : Mark} {typeParams : Bool} (opens : opener ≠ .semi)
    (closes : closer ≠ .semi) :
    Passes P (Passed P ls) K (params g opener closer typeParams) fun l =>
      Passed P (ls ++ l.landmarks) := by
  refine .bind (.expect (TokenKind.isSolid_mark opens)) fun left => ?_
  refine .bind (.enclosed (.commaList (param_passes marks) _)) fun entries => ?_
  refine .bind (.expect (TokenKind.isSolid_mark closes)) fun right => ?_
  refine .bind Param.fields_passes fun fields => .given fun same => .done ?_
  simp [FieldList.landmarks, same]

theorem valueParams_passes : Passes P (Passed P ls) K (valueParams g) fun l =>
    Passed P (ls ++ l.landmarks) :=
  params_passes marks nofun nofun

theorem typeParams_passes : Passes P (Passed P ls) K (typeParams g) fun l =>
    Passed P (ls ++ l.landmarks) :=
  params_passes marks nofun nofun

theorem signature_passes : Passes P (Passed P ls) K (signature g) fun sig =>
    Passed P (ls ++ sig.landmarks) := by
  refine .bind (valueParams_passes marks) fun ps => .peek_bind fun k _ => ?_
  split
  · exact .bind (valueParams_passes marks) fun rs => .done (by
      simp [Signature.landmarks, FieldList.landmarksOpt])
  · split
    · exact .bind marks.type fun t => .done (by
        simp [Signature.landmarks, FieldList.landmarksOpt, FieldList.landmarks,
          Param.landmarks_field])
    · exact .done (by simp [Signature.landmarks, FieldList.landmarksOpt])

/-! ### Members of structs and interfaces -/

omit marks in
theorem isEmbedded_passes {I : Cursor → Prop} : Passes P I K isEmbedded fun _ => I := by
  refine .peek_bind fun k _ => .peekNext_bind fun k' => ?_
  split
  all_goals first
    | exact .idle
    | exact .unexpected
    | exact .bind arrayFollows_passes fun _ => .idle

theorem structField_passes : Passes P (Passed P ls) K (structField g) fun f =>
    Passed P (ls ++ f.landmarks) := by
  refine .lead_bind fun doc => .bind isEmbedded_passes fun embedded => ?_
  extract_lets withNames
  have withNames_passes : ∀ names : List Ident,
      Passes P (Passed P (ls ++ names.map Ident.landmark)) anyKind (withNames names) fun f =>
        Passed P (ls ++ f.landmarks) := by
    intro names
    refine .bind marks.type fun type => .peek_bind fun k _ => ?_
    extract_lets withTag
    have withTag_passes : ∀ tag : Option Literal,
        Passes P (Passed P (ls ++ names.map Ident.landmark ++ type.landmarks ++
          tag.toList.map Literal.landmark)) anyKind (withTag tag) fun f =>
          Passed P (ls ++ f.landmarks) := fun tag =>
      .bind (.passed .terminator) fun _ => .trail_bind fun _ => .done (by simp [Field.landmarks])
    split
    · exact .bind .literal? withTag_passes
    · exact .bind (.done (by simp)) withTag_passes
  split
  · exact .bind (.done (by simp)) withNames_passes
  · exact .bind identList_passes fun names => .given fun _ => withNames_passes names

omit marks in
/-- Members in braces behind a keyword. -/
theorem members_passes {item : Reader Field}
    (h : ∀ {ls K}, Passes P (Passed P ls) K item fun f => Passed P (ls ++ f.landmarks))
    (keyword : Keyword) {rounds : Nat} {make : Span → FieldList → TypeExpr}
    (same : ∀ pos l, (make pos l).landmarks = .token pos :: l.landmarks) :
    Passes P (Passed P ls) K
      (do
        let pos ← expectKeyword keyword
        let left ← expectMark .lbrace
        let fields ← upTo .rbrace item rounds
        let right ← expectMark .rbrace
        return make pos ⟨some ⟨left, right⟩, fields⟩)
      fun t => Passed P (ls ++ t.landmarks) := by
  refine .bind .expectKeyword fun pos => .bind (.expectMark nofun) fun left => ?_
  refine .bind (.upTo h _) fun fields => .bind (.expectMark nofun) fun right => .done ?_
  simp [same, FieldList.landmarks, Field.landmarksAll_eq_flatMap]

theorem structType_passes : Passes P (Passed P ls) K (structType g) fun t =>
    Passed P (ls ++ t.landmarks) :=
  members_passes (structField_passes marks) .kwStruct fun _ _ => rfl

theorem interfaceElement_passes : Passes P (Passed P ls) K (interfaceElement g) fun f =>
    Passed P (ls ++ f.landmarks) := by
  refine .lead_bind fun doc => .peek_bind fun k _ => .peekNext_bind fun k' => ?_
  extract_lets finish
  have finish_passes : ∀ entry : List Ident × TypeExpr,
      Passes P (Passed P (ls ++ entry.1.map Ident.landmark ++ entry.2.landmarks)) anyKind
        (finish entry) fun f => Passed P (ls ++ f.landmarks) := fun entry =>
    .bind (.passed .terminator) fun _ => .trail_bind fun _ => .done (by simp [Field.landmarks])
  split
  · refine .bind .ident fun name => .bind (signature_passes marks) fun sig => ?_
    exact .bind (.done (by simp [TypeExpr.landmarks])) finish_passes
  · exact .bind (constraint_passes marks) fun type => .bind (.done (by simp)) finish_passes

theorem interfaceType_passes : Passes P (Passed P ls) K (interfaceType g) fun t =>
    Passed P (ls ++ t.landmarks) :=
  members_passes (interfaceElement_passes marks) .kwInterface fun _ _ => rfl

/-! ### Types -/

theorem typeName_passes : Passes P (Passed P ls) K (typeName g) fun t => Passed P (ls ++ t.landmarks) := by
  refine .bind .ident fun first => .bind (.acceptMark nofun) fun o => ?_
  extract_lets finish
  have finish_passes : ∀ q : Option Qualifier × Ident,
      Passes P (Passed P (ls ++ Qualifier.landmarks q.1 q.2)) anyKind (finish q) fun t =>
        Passed P (ls ++ t.landmarks) := by
    rintro ⟨qualifier, name⟩
    refine .looksAt_bind fun b => ?_
    split
    · refine .bind (.expectMark nofun) fun lbrack => ?_
      refine .bind (.enclosed (.commaList marks.type _)) fun args => ?_
      exact .bind (.expectMark nofun) fun rbrack => .done (by
        simp [TypeExpr.landmarks, TypeExpr.landmarksAll_eq_flatMap])
    · exact .done rfl
  cases o with
  | none => exact .bind (.done (by simp [Qualifier.landmarks])) finish_passes
  | some _ =>
    exact .bind .ident fun name => .bind (.done (by simp [Qualifier.landmarks])) finish_passes

theorem bracketType_passes : Passes P (Passed P ls) K (bracketType g) fun t =>
    Passed P (ls ++ t.landmarks) := by
  refine .bind (.expectMark nofun) fun lbrack => .bind (.acceptMark nofun) fun o => ?_
  cases o with
  | some _ => exact .bind marks.type fun elem => .done (by simp [TypeExpr.landmarks])
  | none =>
    refine .bind (.acceptMark nofun) fun o => ?_
    cases o with
    | some _ =>
      refine .bind (.expectMark nofun) fun _ => .bind marks.type fun elem => .done ?_
      simp [TypeExpr.landmarks]
    | none =>
      refine .bind (.enclosed marks.expr) fun len => .bind (.expectMark nofun) fun _ => ?_
      exact .bind marks.type fun elem => .done (by simp [TypeExpr.landmarks])

theorem mapType_passes : Passes P (Passed P ls) K (mapType g) fun t => Passed P (ls ++ t.landmarks) := by
  refine .bind .expectKeyword fun _ => .bind (.expectMark nofun) fun _ => ?_
  refine .bind marks.type fun key => .bind (.expectMark nofun) fun _ => ?_
  exact .bind marks.type fun value => .done (by simp [TypeExpr.landmarks])

theorem chanType_passes : Passes P (Passed P ls) K (chanType g) fun t =>
    Passed P (ls ++ t.landmarks) := by
  refine .bind .expectKeyword fun chanPos => .bind (.acceptMark nofun) fun o => ?_
  extract_lets finish
  have finish_passes : ∀ dir : ChanDir,
      Passes P (Passed P (ls ++ dir.landmarks chanPos)) anyKind (finish dir) fun t =>
        Passed P (ls ++ t.landmarks) := fun dir =>
    .bind marks.type fun elem => .done (by simp [TypeExpr.landmarks])
  cases o with
  | none => exact .bind (.done (by simp [ChanDir.landmarks])) finish_passes
  | some _ => exact .bind (.done (by simp [ChanDir.landmarks])) finish_passes

theorem typeRule_passes : Passes P (Passed P ls) K (typeRule g) fun t => Passed P (ls ++ t.landmarks) := by
  refine .peek_bind fun k _ => ?_
  split
  · exact typeName_passes marks
  · exact bracketType_passes marks
  · exact .bind (.stepAt rfl) fun _ => .bind marks.type fun elem => .done (by
      simp [TypeExpr.landmarks])
  · refine .bind (.stepAt rfl) fun _ => .bind marks.type fun inner => ?_
    exact .bind (.expectMark nofun) fun _ => .done (by simp [TypeExpr.landmarks])
  · exact .bind (.stepAt rfl) fun _ => .bind (signature_passes marks) fun sig => .done (by
      simp [TypeExpr.landmarks])
  · exact mapType_passes marks
  · exact chanType_passes marks
  · refine .bind (.stepAt rfl) fun _ => .bind .expectKeyword fun _ => ?_
    exact .bind marks.type fun elem => .done (by simp [TypeExpr.landmarks, ChanDir.landmarks])
  · exact structType_passes marks
  · exact interfaceType_passes marks
  · exact .unexpected

end Rules

end GoLayout.Grammar
