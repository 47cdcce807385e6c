import GoLayout.Grammar.Type
import GoLayout.Proofs.Progress.Reader

/-!
The rules for types pass a token before they come to another phrase, and so does every round over
the parameters of a function, the members of a struct or the elements of an interface.
-/

namespace GoLayout.Grammar

variable {n r : Nat} {K : TokenKind → Prop} {g : Readers}

/-! ### Parameters -/

theorem arrayFollows_finishes : Finishes n K arrayFollows fun _ => 0 := .get_bind fun _ => .pure rfl

namespace Param

theorem namedFields_finishes {lparen : Span} {pending : List Ident} {entries : List Param} :
    Finishes n K (namedFields lparen pending entries) fun _ => 0 := by
  fun_induction namedFields lparen pending entries generalizing K with
  | case1 => exact .pure rfl
  | case2 => exact .failAt nofun
  | case3 pending name rest ih => exact ih
  | case4 pending name type rest ih => exact .bind ih fun _ => .pure rfl
  | case5 => exact .failAt nofun

theorem fields_finishes {lparen : Span} {entries : List Param} :
    Finishes n K (fields lparen entries) fun _ => 0 := by
  unfold fields
  split
  · exact namedFields_finishes
  · exact .pure rfl

end Param

section Behind

variable (able : g.Able n 4)

include able

theorem constraintTerm_finishes : Finishes n K (constraintTerm g) fun _ => 1 :=
  .bindOption .acceptMark able.type fun _ _ fewer =>
    .bind (able.next fewer).type fun _ => .pure rfl

theorem constraint_finishes : Finishes n K (constraint g) fun _ => 1 := by
  refine .bindMoving (.sepBy (constraintTerm_finishes able) able.rounds) fun terms m fewer => ?_
  split <;> exact .pure rfl

theorem paramType_finishes {typeParams : Bool} :
    Finishes n K (paramType g typeParams) fun _ => 1 := by
  unfold paramType
  split
  · exact constraint_finishes able
  · exact .bindOption .acceptMark able.type fun _ _ fewer =>
      .bind (able.next fewer).type fun _ => .pure rfl

/-- A round over parameters. -/
theorem param_finishes {closer : Mark} {typeParams : Bool} :
    Finishes n K (param g closer typeParams) fun _ => 1 := by
  refine .peek_bind fun k _ => ?_
  split
  · refine .peekNext_bind fun next => ?_
    split
    · exact .bindMoving .ident fun _ _ _ => .pure rfl
    · split
      · exact .bindMoving able.type fun _ _ _ => .pure rfl
      · refine .bind arrayFollows_finishes fun _ => ?_
        split
        · exact .bindMoving able.type fun _ _ _ => .pure rfl
        · refine .bindMoving .ident fun name m fewer => ?_
          exact .bind (paramType_finishes (able.next fewer)) fun _ => .pure rfl
  · exact .bindMoving (paramType_finishes able) fun _ _ _ => .pure rfl

end Behind

section Rules

variable (able : g.Able n r)

include able

theorem params_finishes {opener closer : Mark} {typeParams : Bool} :
    Finishes n K (params g opener closer typeParams) fun _ => 1 := by
  refine .bindMoving (.expect nofun) fun left m fewer => ?_
  have behind := able.next fewer
  refine .bind (.enclosed (.commaList (param_finishes behind) behind.rounds)) fun entries => ?_
  refine .bind (.expect nofun) fun right => ?_
  exact .bind Param.fields_finishes fun _ => .pure rfl

theorem valueParams_finishes : Finishes n K (valueParams g) fun _ => 1 := params_finishes able

theorem typeParams_finishes : Finishes n K (typeParams g) fun _ => 1 := params_finishes able

theorem signature_finishes : Finishes n K (signature g) fun _ => 1 := by
  refine .bindMoving (valueParams_finishes able) fun ps m fewer => .peek_bind fun k _ => ?_
  have behind := able.next fewer
  split
  · exact .bind (valueParams_finishes behind) fun _ => .pure rfl
  · split
    · exact .bind behind.type fun _ => .pure rfl
    · exact .pure rfl

end Rules

/-! ### Members of structs and interfaces -/

theorem isEmbedded_finishes : Finishes n K isEmbedded fun _ => 0 := by
  refine .peek_bind fun k _ => .peekNext_bind fun k' => ?_
  split
  · exact .pure rfl
  · exact .pure rfl
  · exact .pure rfl
  · exact .pure rfl
  · exact .pure rfl
  · exact .bind arrayFollows_finishes fun _ => .pure rfl
  · exact .pure rfl
  · exact .unexpected

/-- A round over the members of a struct. -/
theorem structField_finishes (able : g.Able n 4) : Finishes n K (structField g) fun _ => 1 := by
  refine .lead_bind fun doc => .bind isEmbedded_finishes fun embedded => ?_
  extract_lets withNames
  have withNames_finishes : ∀ names, Finishes n anyKind (withNames names) fun _ => 1 := by
    intro names
    refine .bindMoving able.type fun type m fewer => .peek_bind fun k _ => ?_
    extract_lets withTag
    have withTag_finishes : ∀ tag, Finishes m anyKind (withTag tag) fun _ => 0 := fun tag =>
      .bind .terminator fun _ => .trail_bind fun _ => .pure rfl
    split
    · exact .bind .literal? withTag_finishes
    · exact .bind .idle withTag_finishes
  split
  · exact .bind .idle withNames_finishes
  · exact .bind able.identList withNames_finishes

/-- A round over the elements of an interface. -/
theorem interfaceElement_finishes (able : g.Able n 4) :
    Finishes n K (interfaceElement g) fun _ => 1 := by
  refine .lead_bind fun doc => .peek_bind fun k _ => .peekNext_bind fun k' => ?_
  extract_lets finish
  have finish_finishes {m : Nat} : ∀ entry, Finishes m anyKind (finish entry) fun _ => 0 :=
    fun entry => .bind .terminator fun _ => .trail_bind fun _ => .pure rfl
  split
  · refine .bindMoving .ident fun name m fewer => ?_
    refine .bind (signature_finishes (able.next fewer)) fun _ => ?_
    exact .bind .idle finish_finishes
  · refine .bindMoving (constraint_finishes able) fun _ _ _ => ?_
    exact .bind .idle finish_finishes

/-- Members in braces behind a keyword. -/
theorem members_finishes {item : Reader Field} {keyword : Keyword}
    {make : Span → FieldList → TypeExpr} (able : g.Able n r)
    (h : ∀ m, g.Able m 4 → Finishes m anyKind item fun _ => 1) :
    Finishes n K
      (do
        let pos ← expectKeyword keyword
        let left ← expectMark .lbrace
        let fields ← upTo .rbrace item g.rounds
        let right ← expectMark .rbrace
        return make pos ⟨some ⟨left, right⟩, fields⟩)
      fun _ => 1 := by
  refine .bindMoving .expectKeyword fun pos m fewer => .bind .expectMark fun left => ?_
  have behind := able.next fewer
  exact .bind (.upTo (h m behind) behind.rounds) fun _ => .bind .expectMark fun _ => .pure rfl

/-! ### Types -/

section Rules

variable (able : g.Able n r)

include able

theorem structType_finishes : Finishes n K (structType g) fun _ => 1 :=
  members_finishes able fun _ => structField_finishes

theorem interfaceType_finishes : Finishes n K (interfaceType g) fun _ => 1 :=
  members_finishes able fun _ => interfaceElement_finishes

theorem typeName_finishes : Finishes n K (typeName g) fun _ => 1 := by
  refine .bindMoving .ident fun first m fewer => .bind .acceptMark fun o => ?_
  have behind := able.next fewer
  extract_lets finish
  have finish_finishes : ∀ q, Finishes m anyKind (finish q) fun _ => 0 := by
    rintro ⟨qualifier, name⟩
    refine .looksAt_bind fun b => ?_
    split
    · refine .bind .expectMark fun lbrack => ?_
      refine .bind (.enclosed (.commaList behind.type behind.rounds)) fun args => ?_
      exact .bind .expectMark fun _ => .pure rfl
    · exact .pure rfl
  cases o with
  | none => exact .bind .idle finish_finishes
  | some _ => exact .bind .ident fun name => .bind .idle finish_finishes

theorem bracketType_finishes : Finishes n K (bracketType g) fun _ => 1 := by
  refine .bindMoving .expectMark fun lbrack m fewer => .bind .acceptMark fun o => ?_
  have behind := able.next fewer
  cases o with
  | some _ => exact .bind behind.type fun _ => .pure rfl
  | none =>
    refine .bind .acceptMark fun o => ?_
    cases o with
    | some _ => exact .bind .expectMark fun _ => .bind behind.type fun _ => .pure rfl
    | none =>
      refine .bind (.enclosed behind.expr) fun _ => .bind .expectMark fun _ => ?_
      exact .bind behind.type fun _ => .pure rfl

theorem mapType_finishes : Finishes n K (mapType g) fun _ => 1 := by
  refine .bindMoving .expectKeyword fun _ m fewer => .bind .expectMark fun _ => ?_
  have behind := able.next fewer
  exact .bind behind.type fun _ => .bind .expectMark fun _ => .bind behind.type fun _ => .pure rfl

theorem chanType_finishes : Finishes n K (chanType g) fun _ => 1 := by
  refine .bindMoving .expectKeyword fun _ m fewer => .bind .acceptMark fun o => ?_
  extract_lets finish
  have finish_finishes : ∀ dir, Finishes m anyKind (finish dir) fun _ => 0 := fun dir =>
    .bind (able.next fewer).type fun _ => .pure rfl
  cases o with
  | none => exact .bind .idle finish_finishes
  | some _ => exact .bind .idle finish_finishes

theorem typeRule_finishes : Finishes n K (typeRule g) fun _ => 1 := by
  refine .peek_bind fun k _ => ?_
  split
  · exact typeName_finishes able
  · exact bracketType_finishes able
  · exact .bindMoving (.stepAt nofun) fun _ m fewer =>
      .bind (able.next fewer).type fun _ => .pure rfl
  · exact .bindMoving (.stepAt nofun) fun _ m fewer =>
      .bind (able.next fewer).type fun _ => .bind .expectMark fun _ => .pure rfl
  · exact .bindMoving (.stepAt nofun) fun _ m fewer =>
      .bind (signature_finishes (able.next fewer)) fun _ => .pure rfl
  · exact mapType_finishes able
  · exact chanType_finishes able
  · exact .bindMoving (.stepAt nofun) fun _ m fewer =>
      .bind .expectKeyword fun _ => .bind (able.next fewer).type fun _ => .pure rfl
  · exact structType_finishes able
  · exact interfaceType_finishes able
  · exact .unexpected

end Rules

end GoLayout.Grammar
