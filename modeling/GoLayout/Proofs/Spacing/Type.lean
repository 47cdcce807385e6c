import GoLayout.Grammar.Type
import GoLayout.Proofs.Spacing.Reader

/-!
The rules for types, signatures and their fields read moved tokens as moved trees: they look at the
kinds of tokens, and at their places only to put them into the tree.
-/

namespace GoLayout.Grammar

variable {m : Moving} {K : TokenKind → Prop} {g : Readers}

def Elements.move (m : Moving) (e : Elements) : Elements :=
  ⟨m.span e.lbrace, e.list.map (·.move m), m.span e.rbrace⟩

/-- What a phrase reads as, moved. -/
def Phrase.move (m : Moving) : (p : Phrase) → p.Value → p.Value
  | .type => TypeExpr.move m
  | .binary _ | .unary => Expr.move m
  | .elements => Elements.move m
  | .stmt | .ifStmt => Stmt.move m

/-- Readers that read moved tokens as moved phrases. -/
def Readers.Moved (m : Moving) (g : Readers) : Prop :=
  ∀ (p : Phrase) {K : TokenKind → Prop}, Moves m K (g.read p) (g.read p) (p.move m)

namespace Readers.Moved

variable (moved : g.Moved m)

include moved

theorem type : Moves m K g.type g.type (TypeExpr.move m) := moved .type

theorem expr : Moves m K g.expr g.expr (Expr.move m) := moved (.binary 1)

theorem exprList : Moves m K g.exprList g.exprList (List.map (Expr.move m)) :=
  .sepBy (by decide) moved.expr _

theorem stmtList : Moves m K g.stmtList g.stmtList (List.map (Stmt.move m)) := by
  apply Moves.many
  intro K
  unfold stmtList.stmt? stmtList.skipSemis
  refine .bind (.bind (.skipSemis _) fun _ => .pure (f := id) rfl) fun _ => ?_
  apply Moves.peek_bind
  intro k _
  split
  · exact .pure rfl
  · exact .pure rfl
  · exact .pure rfl
  · exact .pure rfl
  · exact .bind (moved .stmt) fun s => .pure rfl

theorem block : Moves m K g.block g.block (Block.move m) := by
  refine .bind (.expectMark (by decide)) fun lbrace => ?_
  refine .bind moved.stmtList fun stmts => ?_
  refine .bind (.expectMark (by decide)) fun rbrace => .pure ?_
  rw [Block.move, Stmt.moveAll_eq]

theorem body : Moves m K g.body g.body (Block.move m) := moved.block.enclosed

end Readers.Moved

theorem identList_moves : Moves m K g.identList g.identList (List.map m.ident) :=
  .sepBy (by decide) .ident _

/-! ### Parameters -/

theorem typeAfterBrackets_move (depth : Nat) (ts : List Attached) :
    typeAfterBrackets depth (ts.map (·.move m)) = typeAfterBrackets depth ts := by
  induction ts generalizing depth with
  | nil => rfl
  | cons t ts ih =>
    have next : (ts.map (·.move m)).head?.any (·.kind.startsType) =
        ts.head?.any (·.kind.startsType) := by
      cases ts <;> rfl
    have kind : (t.move m).kind = t.kind := rfl
    simp only [List.map_cons, typeAfterBrackets, kind, ih, next]

theorem arrayFollows_moves : Moves m K arrayFollows arrayFollows id := by
  apply Moves.get_bind
  intro c
  exact .pure (typeAfterBrackets_move 0 c.rest)

namespace Param

def move (m : Moving) : Param → Param
  | .lone name => .lone (m.ident name)
  | .typed name type => .typed (name.map m.ident) (type.move m)

theorem type_move (p : Param) : (p.move m).type = p.type.move m := by
  cases p <;> rfl

theorem isNamed_move (p : Param) : (p.move m).isNamed = p.isNamed := by
  rcases p with name | ⟨- | name, type⟩ <;> rfl

theorem namedFields_moves (lparen lparen' : Span) (pending : List Ident) (entries : List Param) :
    Moves m K (namedFields lparen pending entries)
      (namedFields lparen' (pending.map m.ident) (entries.map (·.move m)))
      (List.map (Field.move m)) := by
  fun_induction namedFields lparen pending entries generalizing K with
  | case1 => exact .pure rfl
  | case2 => exact .failAt
  | case3 pending name rest ih =>
    rw [List.map_append] at ih
    simp only [List.map_cons, move, namedFields]
    exact ih
  | case4 pending name type rest ih =>
    simp only [List.map_cons, move, Option.map_some, namedFields]
    refine .bind ih fun fields => .pure ?_
    simp [field, Field.move]
  | case5 =>
    simp only [List.map_cons, move, Option.map_none, namedFields]
    exact .failAt

theorem fields_moves (lparen lparen' : Span) (entries : List Param) :
    Moves m K (fields lparen entries) (fields lparen' (entries.map (·.move m)))
      (List.map (Field.move m)) := by
  have named : (entries.map (·.move m)).any isNamed = entries.any isNamed := by
    simp [List.any_map, Function.comp_def, isNamed_move]
  unfold fields
  rw [named]
  split
  · exact namedFields_moves lparen lparen' [] entries
  · refine .pure ?_
    simp [field, type_move, Field.move]

end Param

section Rules

variable (moved : g.Moved m)

include moved

theorem constraint_moves : Moves m K (constraint g) (constraint g) (TypeExpr.move m) := by
  have term {K} : Moves m K (constraintTerm g) (constraintTerm g) (TypeExpr.move m) := by
    refine .bind (.acceptMark (by decide)) fun o => ?_
    cases o with
    | none => exact moved.type
    | some s => exact .bind moved.type fun t => .pure rfl
  refine .bind (.sepBy (by decide) term _) fun terms => ?_
  rcases terms with - | ⟨t, - | ⟨t', ts⟩⟩
  · exact .pure rfl
  · exact .pure rfl
  · refine .pure ?_
    rw [TypeExpr.move, TypeExpr.moveAll_eq]
    rfl

theorem paramType_moves {typeParams : Bool} :
    Moves m K (paramType g typeParams) (paramType g typeParams) (TypeExpr.move m) := by
  unfold paramType
  split
  · exact constraint_moves moved
  · refine .bind (.acceptMark (by decide)) fun o => ?_
    cases o with
    | none => exact moved.type
    | some s => exact .bind moved.type fun t => .pure rfl

theorem param_moves {closer : Mark} {typeParams : Bool} :
    Moves m K (param g closer typeParams) (param g closer typeParams) (Param.move m) := by
  apply Moves.peek_bind
  intro k _
  split
  · apply Moves.peekNext_bind
    intro next
    split
    · exact .bind .ident fun name => .pure rfl
    · split
      · exact .bind moved.type fun t => .pure rfl
      · refine .bind arrayFollows_moves fun follows => ?_
        rw [id_eq]
        split
        · exact .bind moved.type fun t => .pure rfl
        · refine .bind .ident fun name => ?_
          exact .bind (paramType_moves moved) fun t => .pure rfl
  · exact .bind (paramType_moves moved) fun t => .pure rfl

theorem params_moves {opener closer : Mark} {typeParams : Bool} (left : opener ≠ .semi)
    (right : closer ≠ .semi) :
    Moves m K (params g opener closer typeParams) (params g opener closer typeParams)
      (FieldList.move m) := by
  refine .bind (.expect (TokenKind.isSolid_mark left)) fun lparen => ?_
  refine .bind (.enclosed (.commaList (param_moves moved) _)) fun entries => ?_
  refine .bind (.expect (TokenKind.isSolid_mark right)) fun rparen => ?_
  refine .bind (Param.fields_moves lparen (m.span lparen) entries) fun fields => .pure ?_
  rw [FieldList.move, Field.moveAll_eq]
  rfl

theorem valueParams_moves : Moves m K (valueParams g) (valueParams g) (FieldList.move m) :=
  params_moves moved (by decide) (by decide)

theorem typeParams_moves : Moves m K (typeParams g) (typeParams g) (FieldList.move m) :=
  params_moves moved (by decide) (by decide)

theorem signature_moves : Moves m K (signature g) (signature g) (Signature.move m) := by
  refine .bind (valueParams_moves moved) fun ps => ?_
  apply Moves.peek_bind
  intro k _
  split
  · exact .bind (valueParams_moves moved) fun rs => .pure rfl
  · split
    · exact .bind moved.type fun t => .pure rfl
    · exact .pure rfl

/-! ### Members of structs and interfaces -/

omit moved in
theorem isEmbedded_moves : Moves m K isEmbedded isEmbedded id := by
  apply Moves.peek_bind
  intro k _
  apply Moves.peekNext_bind
  intro k'
  split
  all_goals first
    | exact .pure rfl
    | exact .unexpected
    | exact .bind arrayFollows_moves fun _ => .pure rfl

theorem structField_moves :
    Moves m (· ≠ .eof) (structField g) (structField g) (Field.move m) := by
  refine .lead_bind (fun _ goesOn => goesOn) fun doc => ?_
  refine .bind isEmbedded_moves fun embedded => ?_
  extract_lets withNames
  have withNames_moves : ∀ names : List Ident,
      Moves m anyKind (withNames names) (withNames (names.map m.ident)) (Field.move m) := by
    intro names
    refine .bind moved.type fun type => .peek_bind fun k _ => ?_
    extract_lets withTag withTag'
    have withTag_moves : ∀ tag : Option Literal,
        Moves m anyKind (withTag tag) (withTag' (tag.map m.literal)) (Field.move m) := fun tag =>
      .bind .terminator fun _ => .trail_bind fun _ => .pure rfl
    split
    · exact .bind .literal? withTag_moves
    · exact .bind (.pure rfl) withTag_moves
  rw [id_eq]
  split
  · exact .bind (.pure rfl) withNames_moves
  · exact .bind identList_moves withNames_moves

omit moved in
/-- Members in braces behind a keyword. -/
theorem members_moves {item : Reader Field} (each : Moves m (· ≠ .eof) item item (Field.move m))
    (keyword : Keyword) {rounds : Nat} {make : Span → FieldList → TypeExpr}
    (same : ∀ s l, make (m.span s) (l.move m) = (make s l).move m) :
    let members : Reader TypeExpr := do
      let pos ← expectKeyword keyword
      let left ← expectMark .lbrace
      let fields ← upTo .rbrace item rounds
      let right ← expectMark .rbrace
      return make pos ⟨some ⟨left, right⟩, fields⟩
    Moves m K members members (TypeExpr.move m) := by
  refine .bind .expectKeyword fun pos => ?_
  refine .bind (.expectMark (by decide)) fun lbrace => ?_
  refine .bind (.upTo each _) fun fields => ?_
  refine .bind (.expectMark (by decide)) fun rbrace => .pure ?_
  rw [← same, FieldList.move, Field.moveAll_eq]
  rfl

theorem structType_moves : Moves m K (structType g) (structType g) (TypeExpr.move m) :=
  members_moves (structField_moves moved) .kwStruct fun _ _ => rfl

theorem interfaceElement_moves :
    Moves m (· ≠ .eof) (interfaceElement g) (interfaceElement g) (Field.move m) := by
  refine .lead_bind (fun _ goesOn => goesOn) fun doc => ?_
  refine .peek_bind fun k _ => .peekNext_bind fun k' => ?_
  extract_lets finish
  have finish_moves : ∀ entry : List Ident × TypeExpr,
      Moves m anyKind (finish entry)
        (finish (Prod.map (List.map m.ident) (TypeExpr.move m) entry)) (Field.move m) :=
    fun entry => .bind .terminator fun _ => .trail_bind fun _ => .pure rfl
  clear_value finish
  split
  · refine .bind .ident fun name => .bind (signature_moves moved) fun sig => ?_
    exact .bind (.pure rfl) finish_moves
  · exact .bind (constraint_moves moved) fun type => .bind (.pure rfl) finish_moves

theorem interfaceType_moves : Moves m K (interfaceType g) (interfaceType g) (TypeExpr.move m) :=
  members_moves (interfaceElement_moves moved) .kwInterface fun _ _ => rfl

/-! ### Types -/

theorem typeName_moves : Moves m K (typeName g) (typeName g) (TypeExpr.move m) := by
  refine .bind .ident fun first => ?_
  refine .bind (.acceptMark (by decide)) fun o => ?_
  extract_lets finish
  have finish_moves : ∀ q : Option Qualifier × Ident,
      Moves m anyKind (finish q) (finish (Prod.map (Option.map m.qualifier) m.ident q))
        (TypeExpr.move m) := by
    rintro ⟨qualifier, name⟩
    apply Moves.looksAt_bind
    intro b
    split
    · refine .bind (.expectMark (by decide)) fun lbrack => ?_
      refine .bind (.enclosed (.commaList moved.type _)) fun args => ?_
      refine .bind (.expectMark (by decide)) fun rbrack => .pure ?_
      rw [TypeExpr.move, TypeExpr.moveAll_eq]
    · exact .pure rfl
  clear_value finish
  cases o with
  | none => exact .bind (.pure rfl) finish_moves
  | some s => exact .bind .ident fun name => .bind (.pure rfl) finish_moves

theorem bracketType_moves : Moves m K (bracketType g) (bracketType g) (TypeExpr.move m) := by
  refine .bind (.expectMark (by decide)) fun lbrack => ?_
  refine .bind (.acceptMark (by decide)) fun o => ?_
  cases o with
  | some s => exact .bind moved.type fun elem => .pure rfl
  | none =>
    refine .bind (.acceptMark (by decide)) fun o => ?_
    cases o with
    | some s =>
      refine .bind (.expectMark (by decide)) fun rbrack => ?_
      exact .bind moved.type fun elem => .pure rfl
    | none =>
      refine .bind (.enclosed moved.expr) fun len => ?_
      refine .bind (.expectMark (by decide)) fun rbrack => ?_
      exact .bind moved.type fun elem => .pure rfl

theorem mapType_moves : Moves m K (mapType g) (mapType g) (TypeExpr.move m) := by
  refine .bind .expectKeyword fun mapPos => ?_
  refine .bind (.expectMark (by decide)) fun lbrack => ?_
  refine .bind moved.type fun key => ?_
  refine .bind (.expectMark (by decide)) fun rbrack => ?_
  exact .bind moved.type fun value => .pure rfl

theorem chanType_moves : Moves m K (chanType g) (chanType g) (TypeExpr.move m) := by
  refine .bind .expectKeyword fun chanPos => ?_
  refine .bind (.acceptMark (by decide)) fun o => ?_
  extract_lets finish finish'
  have finish_moves : ∀ dir : ChanDir,
      Moves m anyKind (finish dir) (finish' (m.chanDir dir)) (TypeExpr.move m) := fun dir =>
    .bind moved.type fun elem => .pure rfl
  cases o with
  | none => exact .bind (.pure rfl) finish_moves
  | some s => exact .bind (.pure rfl) finish_moves

theorem typeRule_moves : Moves m K (typeRule g) (typeRule g) (TypeExpr.move m) := by
  apply Moves.peek_bind
  intro k _
  split
  · exact .ofAny (typeName_moves moved)
  · exact .ofAny (bracketType_moves moved)
  · exact .bind (.stepAt rfl) fun star => .bind moved.type fun elem => .pure rfl
  · refine .bind (.stepAt rfl) fun lparen => .bind moved.type fun inner => ?_
    exact .bind (.expectMark (by decide)) fun rparen => .pure rfl
  · exact .bind (.stepAt rfl) fun funcPos => .bind (signature_moves moved) fun sig => .pure rfl
  · exact .ofAny (mapType_moves moved)
  · exact .ofAny (chanType_moves moved)
  · refine .bind (.stepAt rfl) fun arrow => .bind .expectKeyword fun chanPos => ?_
    exact .bind moved.type fun elem => .pure rfl
  · exact .ofAny (structType_moves moved)
  · exact .ofAny (interfaceType_moves moved)
  · exact .unexpected

end Rules

end GoLayout.Grammar
