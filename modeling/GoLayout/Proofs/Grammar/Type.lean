import GoLayout.Grammar.Type
import GoLayout.Proofs.Grammar.Cursor
import GoLayout.Proofs.Tree.Everywhere

/-!
The rules for types, signatures and their fields put the tokens they read into the tree, and no
others: the tree has its tokens where the source has them.
-/

namespace GoLayout.Grammar

variable {P : Span → Prop} {K : TokenKind → Prop} {g : Readers}

def Elements.Everywhere (P : Span → Prop) (e : Elements) : Prop :=
  P e.lbrace ∧ Expr.EverywhereAll P e.list ∧ P e.rbrace

/-- All tokens of what a phrase reads as lie where `P` says. -/
def Phrase.Everywhere (P : Span → Prop) : (p : Phrase) → p.Value → Prop
  | .type => TypeExpr.Everywhere P
  | .binary _ | .unary => Expr.Everywhere P
  | .elements => Elements.Everywhere P
  | .stmt | .ifStmt => Stmt.Everywhere P

/-- Readers that put tokens where they found them. -/
def Readers.Sound (P : Span → Prop) (g : Readers) : Prop :=
  ∀ (p : Phrase) {K : TokenKind → Prop}, Meets P K (g.read p) (p.Everywhere P)

namespace Readers.Sound

variable (sound : g.Sound P)

include sound

theorem type : Meets P K g.type (TypeExpr.Everywhere P) := sound .type

theorem expr : Meets P K g.expr (Expr.Everywhere P) := sound (.binary 1)

theorem exprList : Meets P K g.exprList (Expr.EverywhereAll P) :=
  (Meets.sepBy (by decide) sound.expr _).mono fun _ => Expr.everywhereAll_iff.mpr

theorem stmtList : Meets P K g.stmtList (Stmt.EverywhereAll P) := by
  refine (Meets.many ?_ _).mono fun _ => Stmt.everywhereAll_iff.mpr
  intro K
  unfold stmtList.stmt? stmtList.skipSemis
  refine .bind (.bind (.skipSemis _) fun _ _ => .pure trivial) fun _ (_ : True) => ?_
  refine .peek_bind fun k _ => ?_
  split
  · exact .pure nofun
  · exact .pure nofun
  · exact .pure nofun
  · exact .pure nofun
  · refine .bind (sound .stmt) fun s holds => .pure ?_
    rintro _ ⟨⟩
    exact holds

theorem block : Meets P K g.block (Block.Everywhere P) := by
  refine .bind (.expectMark (by decide)) fun lbrace left => ?_
  refine .bind sound.stmtList fun stmts holds => ?_
  refine .bind (.expectMark (by decide)) fun rbrace right => .pure ?_
  exact ⟨left, holds, right⟩

theorem body : Meets P K g.body (Block.Everywhere P) := sound.block.enclosed

end Readers.Sound

theorem identList_meets : Meets P K g.identList fun names => ∀ i ∈ names, P i.span :=
  .sepBy (by decide) .ident _

/-! ### Parameters -/

theorem arrayFollows_meets : Meets P K arrayFollows fun _ => True :=
  .get_bind fun _ => .pure trivial

namespace Param

def Everywhere (P : Span → Prop) : Param → Prop
  | .lone name => P name.span
  | .typed name type => (∀ i ∈ name, P i.span) ∧ type.Everywhere P

theorem everywhere_type {p : Param} (h : p.Everywhere P) : p.type.Everywhere P := by
  cases p with
  | lone name => exact ⟨nofun, h⟩
  | typed name type => exact h.2

theorem namedFields_meets {lparen : Span} {pending : List Ident} {entries : List Param}
    (named : ∀ i ∈ pending, P i.span) (h : ∀ p ∈ entries, p.Everywhere P) :
    Meets P K (namedFields lparen pending entries) (Field.EverywhereAll P) := by
  fun_induction namedFields lparen pending entries generalizing K with
  | case1 => exact .pure trivial
  | case2 => exact .failAt
  | case3 pending name rest ih =>
    obtain ⟨here, behind⟩ := List.forall_mem_cons.mp h
    refine ih ?_ behind
    simpa [or_imp, forall_and] using ⟨named, here⟩
  | case4 pending name type rest ih =>
    obtain ⟨⟨ofName, ofType⟩, behind⟩ := List.forall_mem_cons.mp h
    refine .bind (ih (by simp) behind) fun fields holds => .pure ⟨⟨?_, ofType, nofun⟩, holds⟩
    simpa [or_imp, forall_and] using ⟨named, ofName name rfl⟩
  | case5 => exact .failAt

theorem fields_meets {lparen : Span} {entries : List Param} (h : ∀ p ∈ entries, p.Everywhere P) :
    Meets P K (fields lparen entries) (Field.EverywhereAll P) := by
  unfold fields
  split
  · exact namedFields_meets (by simp) h
  · refine .pure (Field.everywhereAll_iff.mpr ?_)
    rintro f mem
    obtain ⟨p, found, rfl⟩ := List.mem_map.mp mem
    exact ⟨by simp, everywhere_type (h p found), nofun⟩

end Param

section Rules

variable (sound : g.Sound P)

include sound

theorem constraint_meets : Meets P K (constraint g) (TypeExpr.Everywhere P) := by
  have term {K} : Meets P K (constraintTerm g) (TypeExpr.Everywhere P) := by
    refine .bind (.acceptMark (by decide)) fun o tilde => ?_
    cases o with
    | none => exact sound.type
    | some s => exact .bind sound.type fun t holds => .pure ⟨tilde s rfl, holds⟩
  refine .bind (.sepBy (by decide) term _) fun terms holds => ?_
  split
  · exact .pure (holds _ List.mem_cons_self)
  · exact .pure (TypeExpr.everywhereAll_iff.mpr holds)

theorem paramType_meets {typeParams : Bool} :
    Meets P K (paramType g typeParams) (TypeExpr.Everywhere P) := by
  unfold paramType
  split
  · exact constraint_meets sound
  · refine .bind (.acceptMark (by decide)) fun o dots => ?_
    cases o with
    | none => exact sound.type
    | some s => exact .bind sound.type fun t holds => .pure ⟨dots s rfl, holds⟩

theorem param_meets {closer : Mark} {typeParams : Bool} :
    Meets P K (param g closer typeParams) (Param.Everywhere P) := by
  refine .peek_bind fun k _ => ?_
  split
  · refine .peekNext_bind fun next => ?_
    split
    · exact .bind .ident fun _ holds => .pure holds
    · split
      · exact .bind sound.type fun _ holds => .pure ⟨nofun, holds⟩
      · refine .bind arrayFollows_meets fun _ _ => ?_
        split
        · exact .bind sound.type fun _ holds => .pure ⟨nofun, holds⟩
        · refine .bind .ident fun name ofName => ?_
          refine .bind (paramType_meets sound) fun type ofType => .pure ⟨?_, ofType⟩
          rintro _ ⟨⟩
          exact ofName
  · exact .bind (paramType_meets sound) fun t holds => .pure ⟨nofun, holds⟩

theorem params_meets {opener closer : Mark} {typeParams : Bool} (left : opener ≠ .semi)
    (right : closer ≠ .semi) :
    Meets P K (params g opener closer typeParams) (FieldList.Everywhere P) := by
  refine .bind (.expect (TokenKind.isSolid_mark left)) fun lparen here => ?_
  refine .bind (.enclosed (.commaList (param_meets sound) _)) fun entries holds => ?_
  refine .bind (.expect (TokenKind.isSolid_mark right)) fun rparen there => ?_
  refine .bind (Param.fields_meets holds) fun fields ofFields => .pure ⟨?_, ofFields⟩
  rintro _ ⟨⟩
  exact ⟨here, there⟩

theorem valueParams_meets : Meets P K (valueParams g) (FieldList.Everywhere P) :=
  params_meets sound (by decide) (by decide)

theorem typeParams_meets : Meets P K (typeParams g) (FieldList.Everywhere P) :=
  params_meets sound (by decide) (by decide)

theorem signature_meets : Meets P K (signature g) (Signature.Everywhere P) := by
  refine .bind (valueParams_meets sound) fun ps ofParams => ?_
  refine .peek_bind fun k _ => ?_
  split
  · exact .bind (valueParams_meets sound) fun rs ofResults => .pure ⟨ofParams, ofResults⟩
  · split
    · refine .bind sound.type fun t ofType => .pure ⟨ofParams, nofun, ⟨?_, ofType, nofun⟩, trivial⟩
      simp
    · exact .pure ⟨ofParams, trivial⟩

/-! ### Members of structs and interfaces -/

omit sound in
theorem isEmbedded_meets : Meets P K isEmbedded fun _ => True := by
  refine .peek_bind fun k _ => .peekNext_bind fun k' => ?_
  split
  all_goals first
    | exact .pure trivial
    | exact .unexpected
    | exact .bind arrayFollows_meets fun _ _ => .pure trivial

theorem structField_meets : Meets P K (structField g) (Field.Everywhere P) := by
  refine .lead_bind fun doc => ?_
  refine .bind isEmbedded_meets fun embedded _ => ?_
  extract_lets withNames
  have withNames_meets : ∀ names : List Ident, (∀ i ∈ names, P i.span) →
      Meets P anyKind (withNames names) (Field.Everywhere P) := by
    intro names ofNames
    refine .bind sound.type fun type ofType => .peek_bind fun k _ => ?_
    extract_lets withTag
    have withTag_meets : ∀ tag : Option Literal, (∀ l ∈ tag, P l.span) →
        Meets P anyKind (withTag tag) (Field.Everywhere P) := fun tag ofTag =>
      .bind .terminator fun _ _ => .trail_bind fun _ => .pure ⟨ofNames, ofType, ofTag⟩
    split
    · exact .bind .literal? withTag_meets
    · exact .bind (.pure nofun) withTag_meets
  split
  · exact .bind (.pure (by simp)) withNames_meets
  · exact .bind identList_meets withNames_meets

omit sound in
/-- Members in braces behind a keyword. -/
theorem members_meets {item : Reader Field} (h : ∀ {K}, Meets P K item (Field.Everywhere P))
    (keyword : Keyword) {rounds : Nat} {make : Span → FieldList → TypeExpr}
    (ok : ∀ s l, P s → l.Everywhere P → (make s l).Everywhere P) :
    Meets P K
      (do
        let pos ← expectKeyword keyword
        let left ← expectMark .lbrace
        let fields ← upTo .rbrace item rounds
        let right ← expectMark .rbrace
        return make pos ⟨some ⟨left, right⟩, fields⟩)
      (TypeExpr.Everywhere P) := by
  refine .bind .expectKeyword fun pos here => ?_
  refine .bind (.expectMark (by decide)) fun lbrace left => ?_
  refine .bind (.upTo h _) fun fields holds => ?_
  refine .bind (.expectMark (by decide)) fun rbrace right => .pure (ok _ _ here ⟨?_, ?_⟩)
  · rintro _ ⟨⟩
    exact ⟨left, right⟩
  · exact Field.everywhereAll_iff.mpr holds

theorem structType_meets : Meets P K (structType g) (TypeExpr.Everywhere P) :=
  members_meets (structField_meets sound) .kwStruct fun _ _ here members => ⟨here, members⟩

theorem interfaceElement_meets : Meets P K (interfaceElement g) (Field.Everywhere P) := by
  refine .lead_bind fun doc => ?_
  refine .peek_bind fun k _ => .peekNext_bind fun k' => ?_
  extract_lets finish
  have finish_meets : ∀ entry : List Ident × TypeExpr,
      (∀ i ∈ entry.1, P i.span) ∧ entry.2.Everywhere P →
      Meets P anyKind (finish entry) (Field.Everywhere P) := by
    rintro ⟨names, type⟩ ⟨ofNames, ofType⟩
    refine .bind .terminator fun _ _ => .trail_bind fun _ => .pure ⟨ofNames, ofType, nofun⟩
  split
  · refine .bind .ident fun name ofName => ?_
    refine .bind (signature_meets sound) fun sig ofSig => ?_
    exact .bind (.pure ⟨by simpa using ofName, nofun, ofSig⟩) finish_meets
  · refine .bind (constraint_meets sound) fun type ofType => ?_
    exact .bind (.pure ⟨by simp, ofType⟩) finish_meets

theorem interfaceType_meets : Meets P K (interfaceType g) (TypeExpr.Everywhere P) :=
  members_meets (interfaceElement_meets sound) .kwInterface fun _ _ here members => ⟨here, members⟩

/-! ### Types -/

theorem typeName_meets : Meets P K (typeName g) (TypeExpr.Everywhere P) := by
  refine .bind .ident fun first ofFirst => ?_
  refine .bind (.acceptMark (by decide)) fun o dot => ?_
  extract_lets finish
  have finish_meets : ∀ q : Option Qualifier × Ident,
      (∀ q' ∈ q.1, q'.Everywhere P) ∧ P q.2.span →
      Meets P anyKind (finish q) (TypeExpr.Everywhere P) := by
    rintro ⟨qualifier, name⟩ ⟨ofQualifier, ofName⟩
    refine .looksAt_bind fun b => ?_
    split
    · refine .bind (.expectMark (by decide)) fun lbrack left => ?_
      refine .bind (.enclosed (.commaList sound.type _)) fun args ofArgs => ?_
      refine .bind (.expectMark (by decide)) fun rbrack right => .pure ?_
      exact ⟨ofQualifier, ofName, left, TypeExpr.everywhereAll_iff.mpr ofArgs, right⟩
    · exact .pure ⟨ofQualifier, ofName⟩
  cases o with
  | none => exact .bind (.pure ⟨nofun, ofFirst⟩) finish_meets
  | some s =>
    refine .bind .ident fun name ofName => .bind (.pure ⟨?_, ofName⟩) finish_meets
    rintro _ ⟨⟩
    exact ⟨ofFirst, dot s rfl⟩

theorem bracketType_meets : Meets P K (bracketType g) (TypeExpr.Everywhere P) := by
  refine .bind (.expectMark (by decide)) fun lbrack left => ?_
  refine .bind (.acceptMark (by decide)) fun o slice => ?_
  cases o with
  | some s => exact .bind sound.type fun elem ofElem => .pure ⟨left, slice s rfl, ofElem⟩
  | none =>
    refine .bind (.acceptMark (by decide)) fun o counted => ?_
    cases o with
    | some s =>
      refine .bind (.expectMark (by decide)) fun rbrack right => ?_
      exact .bind sound.type fun elem ofElem => .pure ⟨left, counted s rfl, right, ofElem⟩
    | none =>
      refine .bind (.enclosed sound.expr) fun len ofLen => ?_
      refine .bind (.expectMark (by decide)) fun rbrack right => ?_
      exact .bind sound.type fun elem ofElem => .pure ⟨left, ofLen, right, ofElem⟩

theorem mapType_meets : Meets P K (mapType g) (TypeExpr.Everywhere P) := by
  refine .bind .expectKeyword fun mapPos here => ?_
  refine .bind (.expectMark (by decide)) fun lbrack left => ?_
  refine .bind sound.type fun key ofKey => ?_
  refine .bind (.expectMark (by decide)) fun rbrack right => ?_
  exact .bind sound.type fun value ofValue => .pure ⟨here, left, ofKey, right, ofValue⟩

theorem chanType_meets : Meets P K (chanType g) (TypeExpr.Everywhere P) := by
  refine .bind .expectKeyword fun chanPos here => ?_
  refine .bind (.acceptMark (by decide)) fun o arrow => ?_
  extract_lets finish
  have finish_meets : ∀ dir : ChanDir, dir.Everywhere P →
      Meets P anyKind (finish dir) (TypeExpr.Everywhere P) := fun dir ofDir =>
    .bind sound.type fun elem ofElem => .pure ⟨ofDir, here, ofElem⟩
  cases o with
  | none => exact .bind (.pure trivial) finish_meets
  | some s => exact .bind (.pure (arrow s rfl)) finish_meets

theorem typeRule_meets : Meets P K (typeRule g) (TypeExpr.Everywhere P) := by
  refine .peek_bind fun k _ => ?_
  split
  · exact .ofAny (typeName_meets sound)
  · exact .ofAny (bracketType_meets sound)
  · refine .bind (.stepAt rfl) fun star here => ?_
    exact .bind sound.type fun elem ofElem => .pure ⟨here, ofElem⟩
  · refine .bind (.stepAt rfl) fun lparen left => ?_
    refine .bind sound.type fun inner ofInner => ?_
    exact .bind (.expectMark (by decide)) fun rparen right => .pure ⟨left, ofInner, right⟩
  · refine .bind (.stepAt rfl) fun funcPos here => ?_
    refine .bind (signature_meets sound) fun sig ofSig => .pure ⟨?_, ofSig⟩
    rintro _ ⟨⟩
    exact here
  · exact .ofAny (mapType_meets sound)
  · exact .ofAny (chanType_meets sound)
  · refine .bind (.stepAt rfl) fun arrow left => ?_
    refine .bind .expectKeyword fun chanPos here => ?_
    exact .bind sound.type fun elem ofElem => .pure ⟨left, here, ofElem⟩
  · exact .ofAny (structType_meets sound)
  · exact .ofAny (interfaceType_meets sound)
  · exact .unexpected

end Rules

end GoLayout.Grammar
