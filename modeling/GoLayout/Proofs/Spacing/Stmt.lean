import GoLayout.Grammar.Stmt
import GoLayout.Proofs.Spacing.Expr

/-!
The rules for declarations and statements read moved tokens as moved trees. The point of an empty
statement behind a label moves with the brace that follows it.
-/

namespace GoLayout.Grammar

variable {m : Moving} {K : TokenKind → Prop} {g : Readers}

/-! ### Declarations -/

theorem importSpec_moves (doc : Link) :
    Moves m K (importSpec doc) (importSpec doc) (Spec.move m) := by
  apply Moves.peek_bind
  intro k _
  extract_lets finish
  have finish_moves : ∀ name : Option ImportName,
      Moves m anyKind (finish name) (finish (name.map m.importName)) (Spec.move m) := fun name =>
    .bind .stringLiteral fun path => .bind .terminator fun _ => .trail_bind fun _ => .pure rfl
  clear_value finish
  split
  · exact .bind (.stepAt rfl) fun dot => .bind (.pure rfl) finish_moves
  · exact .bind .ident fun name => .bind (.pure rfl) finish_moves
  · exact .bind (.pure rfl) finish_moves

theorem opensTypeParams_moves : Moves m K opensTypeParams opensTypeParams id := by
  apply Moves.get_bind
  intro c
  have next : (c.move m).next.current.kind = c.next.current.kind := by rw [c.next_move]; rfl
  have behind : (c.move m).next.next.current.kind = c.next.next.current.kind := by
    rw [c.next_move, c.next.next_move]
    rfl
  dsimp only
  rw [next, behind]
  split
  all_goals exact .pure rfl

section Rules

variable (moved : g.Moved m)

include moved

theorem valueSpec_moves (doc : Link) :
    Moves m K (valueSpec g doc) (valueSpec g doc) (Spec.move m) := by
  refine .bind identList_moves fun names => .peek_bind fun k _ => ?_
  extract_lets withType withType'
  have withType_moves : ∀ type : Option TypeExpr,
      Moves m anyKind (withType type) (withType' (TypeExpr.moveOpt m type)) (Spec.move m) := by
    intro type
    refine .bind (.acceptMark (by decide)) fun assign => ?_
    extract_lets withValues withValues'
    have withValues_moves : ∀ values : List Expr,
        Moves m anyKind (withValues values) (withValues' (values.map (Expr.move m)))
          (Spec.move m) := by
      intro values
      refine .bind .terminator fun _ => .trail_bind fun _ => .pure ?_
      rw [Spec.move, Expr.moveAll_eq]
    clear_value withValues withValues'
    rw [Option.isSome_map]
    split
    · exact .bind moved.exprList withValues_moves
    · exact .bind (.pure rfl) withValues_moves
  clear_value withType withType'
  split
  · exact .bind (.pure rfl) withType_moves
  · exact .bind (.pure rfl) withType_moves
  · exact .bind (.pure rfl) withType_moves
  · exact .bind (.pure rfl) withType_moves
  · exact .bind (.map moved.type fun _ => rfl) withType_moves

theorem typeSpec_moves (doc : Link) :
    Moves m K (typeSpec g doc) (typeSpec g doc) (Spec.move m) := by
  refine .bind .ident fun name => .looksAt_bind fun b => ?_
  refine .bind opensTypeParams_moves fun opens => ?_
  extract_lets withParams withParams'
  have withParams_moves : ∀ params : Option FieldList,
      Moves m anyKind (withParams params) (withParams' (FieldList.moveOpt m params))
        (Spec.move m) := by
    intro params
    refine .bind (.acceptMark (by decide)) fun assign => .bind moved.type fun type => ?_
    exact .bind .terminator fun _ => .trail_bind fun _ => .pure rfl
  clear_value withParams withParams'
  rw [id_eq]
  split
  · exact .bind (.map (typeParams_moves moved) fun _ => rfl) withParams_moves
  · exact .bind (.pure rfl) withParams_moves

theorem spec_moves (kind : DeclKind) (doc : Link) :
    Moves m K (spec g kind doc) (spec g kind doc) (Spec.move m) := by
  cases kind with
  | imports => exact importSpec_moves doc
  | consts => exact valueSpec_moves moved doc
  | vars => exact valueSpec_moves moved doc
  | types => exact typeSpec_moves moved doc

theorem genDecl_moves {kind : DeclKind} (solid : ∀ k, K k → k.isSolid) :
    Moves m K (genDecl g kind) (genDecl g kind) (GenDecl.move m) := by
  have noEnd : ∀ k, K k → k ≠ .eof := by
    rintro _ isEnd rfl
    nomatch solid _ isEnd
  refine .lead_bind noEnd fun doc => .bind (.step solid) fun kwPos => ?_
  refine .bind (.acceptMark (by decide)) fun o => ?_
  cases o with
  | none => exact .bind (spec_moves moved kind none) fun s => .pure rfl
  | some s =>
    have item : Moves m (· ≠ .eof) (do spec g kind (← lead)) (do spec g kind (← lead))
        (Spec.move m) :=
      .lead_bind (fun _ goesOn => goesOn) fun doc => spec_moves moved kind doc
    refine .bind (.upTo item _) fun specs => ?_
    refine .bind (.expectMark (by decide)) fun rparen => .bind .terminator fun _ => .pure ?_
    rw [GenDecl.move, Spec.moveAll_eq]
    rfl

/-! ### Simple statements -/

def RangeClause.move (m : Moving) (c : RangeClause) : RangeClause where
  key := Expr.moveOpt m c.key
  value := Expr.moveOpt m c.value
  op := c.op.map fun (op, opPos) => (op, m.span opPos)
  rangePos := m.span c.rangePos
  operand := c.operand.move m

def Simple.move (m : Moving) : Simple → Simple
  | .stmt s => .stmt (s.move m)
  | .range c => .range (c.move m)

theorem rangeClause_moves (key value : Option Expr) (op : Option (AssignOp × Span))
    (solid : ∀ k, K k → k.isSolid) :
    Moves m K (rangeClause g key value op)
      (rangeClause g (Expr.moveOpt m key) (Expr.moveOpt m value)
        (op.map fun (op, opPos) => (op, m.span opPos)))
      (Simple.move m) :=
  .bind (.step solid) fun _ => .bind moved.expr fun _ => .pure rfl

theorem assignment_moves {rangeOk : Bool} (lhs : List Expr) (op : AssignOp)
    (solid : ∀ k, K k → k.isSolid) :
    Moves m K (assignment g rangeOk lhs op) (assignment g rangeOk (lhs.map (Expr.move m)) op)
      (Simple.move m) := by
  refine .bind (.step solid) fun opPos => .looksAt_bind fun b => ?_
  split
  · rename_i isRange
    rw [List.getElem?_map, List.getElem?_map, ← Expr.moveOpt_eq, ← Expr.moveOpt_eq]
    apply rangeClause_moves moved lhs[0]? lhs[1]? (some (op, opPos))
    rintro k ⟨-, rfl⟩
    simp only [Bool.and_eq_true, beq_iff_eq] at isRange
    rw [isRange.1.2]
    rfl
  · refine .bind moved.exprList fun rhs => .pure ?_
    rw [Simple.move, Stmt.move, Expr.moveAll_eq, Expr.moveAll_eq]

theorem labeled_moves (label : Ident) (solid : ∀ k, K k → k.isSolid) :
    Moves m K (labeled g label) (labeled g (m.ident label)) (Simple.move m) := by
  refine .bind (.step solid) fun colon => .peek_bind fun k _ => ?_
  split
  · exact .here_bind (isSolid_of_eq rfl) fun s => .pure rfl
  · exact .bind (moved .stmt) fun s => .pure rfl

theorem simpleRest_moves {labelOk rangeOk : Bool} (first : Expr) (rest : List Expr) :
    Moves m K (simpleRest g labelOk rangeOk first rest)
      (simpleRest g labelOk rangeOk (first.move m) (rest.map (Expr.move m))) (Simple.move m) := by
  apply Moves.peek_bind
  intro k _
  split
  · split
    · exact .pure rfl
    · cases first with
      | ident label => exact labeled_moves moved label (isSolid_of_eq rfl)
      | _ => exact .unexpected
  · refine .bind (.stepAt rfl) fun arrow => .bind moved.expr fun value => .pure rfl
  · exact .bind (.stepAt rfl) fun opPos => .pure rfl
  · exact .bind (.stepAt rfl) fun opPos => .pure rfl
  · rename_i mark _ _ _ _ _
    split
    · rename_i op isOp
      exact assignment_moves moved (first :: rest) op
        (isSolid_of_eq (AssignOp.isSolid_of_ofMark? isOp))
    · exact .pure rfl
  · exact .pure rfl

theorem simple_moves {labelOk rangeOk : Bool} :
    Moves m K (simple g labelOk rangeOk) (simple g labelOk rangeOk) (Simple.move m) := by
  apply Moves.looksAt_bind
  intro b
  split
  · rename_i isRange
    apply rangeClause_moves moved none none none
    rintro k ⟨-, rfl⟩
    simp only [Bool.and_eq_true, beq_iff_eq] at isRange
    rw [isRange.2]
    rfl
  · refine .bind moved.expr fun first => .bind (.acceptMark (by decide)) fun o => ?_
    extract_lets withRest withRest'
    have withRest_moves : ∀ rest : List Expr,
        Moves m anyKind (withRest rest) (withRest' (rest.map (Expr.move m))) (Simple.move m) :=
      fun rest => simpleRest_moves moved first rest
    clear_value withRest withRest'
    cases o with
    | none => exact .bind (.pure rfl) withRest_moves
    | some _ => exact .bind moved.exprList withRest_moves

theorem simpleStmt_moves : Moves m K (simpleStmt g) (simpleStmt g) (Stmt.move m) := by
  refine .bind (simple_moves moved) fun s => ?_
  cases s with
  | stmt s => exact .pure rfl
  | range c => exact .unexpected

/-! ### Control statements -/

theorem ifHeader_moves : Moves m K (ifHeader g) (ifHeader g)
    (Prod.map (Stmt.moveOpt m) (Expr.move m)) := by
  apply Moves.looksAt_bind
  intro b
  extract_lets finish withFirst body
  have finish_moves : ∀ parts : Option Stmt × Option Stmt,
      Moves m anyKind (finish parts)
        (finish (Prod.map (Stmt.moveOpt m) (Stmt.moveOpt m) parts))
        (Prod.map (Stmt.moveOpt m) (Expr.move m)) := by
    rintro ⟨init, cond⟩
    rcases cond with - | cond
    · exact .unexpected
    · cases cond with
      | expr e => exact .pure rfl
      | _ => exact .unexpected
  have withFirst_moves : ∀ first : Option Stmt,
      Moves m anyKind (withFirst first) (withFirst (Stmt.moveOpt m first))
        (Prod.map (Stmt.moveOpt m) (Expr.move m)) := by
    intro first
    refine .bind .acceptSemi fun o => ?_
    clear_value finish
    cases o with
    | none => exact .bind (.pure rfl) finish_moves
    | some _ => exact .bind (simpleStmt_moves moved) fun cond => .bind (.pure rfl) finish_moves
  have body_moves : Moves m anyKind (body ()) (body ())
      (Prod.map (Stmt.moveOpt m) (Expr.move m)) := by
    apply Moves.looksAt_bind
    intro b
    clear_value withFirst
    split
    · exact .bind (.pure rfl) withFirst_moves
    · exact .bind (.map (simpleStmt_moves moved) fun _ => rfl) withFirst_moves
  clear_value body
  split
  · exact .bind (.unexpected (f := id)) fun _ => body_moves
  · exact .ofAny body_moves

theorem elseBranch_moves : Moves m K (elseBranch g) (elseBranch g) (Stmt.move m) := by
  apply Moves.peek_bind
  intro k _
  split
  · exact moved .ifStmt
  · exact .bind moved.block fun b => .pure rfl
  · exact .unexpected

theorem ifRule_moves : Moves m K (ifRule g) (ifRule g) (Stmt.move m) := by
  refine .bind .expectKeyword fun ifPos => .bind (.enclosed (ifHeader_moves moved)) ?_
  rintro ⟨init, cond⟩
  refine .bind moved.block fun body => .bind (.accept rfl) fun o => ?_
  extract_lets finish finish'
  have finish_moves : ∀ orElse : Option Stmt,
      Moves m anyKind (finish orElse) (finish' (Stmt.moveOpt m orElse)) (Stmt.move m) :=
    fun orElse => .pure rfl
  clear_value finish finish'
  cases o with
  | none => exact .bind (.pure rfl) finish_moves
  | some _ => exact .bind (.map (elseBranch_moves moved) fun _ => rfl) finish_moves

theorem switchHeader_moves : Moves m K (switchHeader g) (switchHeader g)
    (Prod.map (Stmt.moveOpt m) (Stmt.moveOpt m)) := by
  apply Moves.looksAt_bind
  intro b
  split
  · exact .pure rfl
  · apply Moves.looksAt_bind
    intro b
    extract_lets withFirst
    have withFirst_moves : ∀ first : Option Stmt,
        Moves m anyKind (withFirst first) (withFirst (Stmt.moveOpt m first))
          (Prod.map (Stmt.moveOpt m) (Stmt.moveOpt m)) := by
      intro first
      refine .bind .acceptSemi fun o => ?_
      cases o with
      | none => exact .pure rfl
      | some _ =>
        apply Moves.looksAt_bind
        intro b
        split
        · exact .pure rfl
        · exact .bind (simpleStmt_moves moved) fun tag => .pure rfl
    clear_value withFirst
    split
    · exact .bind (.pure rfl) withFirst_moves
    · exact .bind (.map (simpleStmt_moves moved) fun _ => rfl) withFirst_moves

omit moved in
theorem isTypeGuard_move (e : Expr) : isTypeGuard (e.move m) = isTypeGuard e := by
  cases e with
  | assertion operand dot lparen type rparen => cases type <;> rfl
  | _ => rfl

omit moved in
theorem isTypeSwitchGuard_move (s : Stmt) : isTypeSwitchGuard (s.move m) = isTypeSwitchGuard s := by
  cases s with
  | expr e => exact isTypeGuard_move e
  | assign lhs op opPos rhs =>
    cases op with
    | define =>
      rcases rhs with - | ⟨e, - | ⟨e', rhs⟩⟩
      · rfl
      · exact isTypeGuard_move e
      · rfl
    | _ => rfl
  | _ => rfl

omit moved in
theorem clauseKeyword_moves :
    Moves m K clauseKeyword clauseKeyword (Prod.map m.span id) := by
  refine .bind (.accept rfl) fun o => ?_
  cases o with
  | none => exact .bind (.expect rfl) fun s => .pure rfl
  | some s => exact .pure rfl

theorem caseClause_moves : Moves m K (caseClause g) (caseClause g) (Stmt.move m) := by
  refine .bind clauseKeyword_moves ?_
  rintro ⟨casePos, isCase⟩
  dsimp -zeta only [Prod.map, id_eq]
  extract_lets withValues withValues'
  have withValues_moves : ∀ values : List Expr,
      Moves m anyKind (withValues values) (withValues' (values.map (Expr.move m)))
        (Stmt.move m) := by
    intro values
    refine .bind (.expectMark (by decide)) fun colon => .bind moved.stmtList fun body => .pure ?_
    rw [Stmt.move, Expr.moveAll_eq, Stmt.moveAll_eq]
  clear_value withValues withValues'
  split
  · exact .bind moved.exprList withValues_moves
  · exact .bind (.pure rfl) withValues_moves

theorem commClause_moves : Moves m K (commClause g) (commClause g) (Stmt.move m) := by
  refine .bind clauseKeyword_moves ?_
  rintro ⟨casePos, isCase⟩
  dsimp -zeta only [Prod.map, id_eq]
  extract_lets withComm withComm'
  have withComm_moves : ∀ comm : Option Stmt,
      Moves m anyKind (withComm comm) (withComm' (Stmt.moveOpt m comm)) (Stmt.move m) := by
    intro comm
    refine .bind (.expectMark (by decide)) fun colon => .bind moved.stmtList fun body => .pure ?_
    rw [Stmt.move, Stmt.moveAll_eq]
  clear_value withComm withComm'
  split
  · exact .bind (.map (simpleStmt_moves moved) fun _ => rfl) withComm_moves
  · exact .bind (.pure rfl) withComm_moves

omit moved in
theorem clauses_moves {clause : Reader Stmt}
    (each : ∀ {K}, Moves m K clause clause (Stmt.move m)) :
    Moves m K (clauses g clause) (clauses g clause) (Block.move m) := by
  have clause? {K} : Moves m K (clauses.clause? clause) (clauses.clause? clause)
      (Option.map (Stmt.move m)) := by
    apply Moves.peek_bind
    intro k _
    split
    · exact .bind each fun s => .pure rfl
    · exact .bind each fun s => .pure rfl
    · exact .pure rfl
  refine .bind (.expectMark (by decide)) fun lbrace => .bind (.many clause? _) fun list => ?_
  refine .bind (.expectMark (by decide)) fun rbrace => .pure ?_
  rw [Block.move, Stmt.moveAll_eq]

theorem switchStmt_moves : Moves m K (switchStmt g) (switchStmt g) (Stmt.move m) := by
  refine .bind .expectKeyword fun switchPos => .bind (.enclosed (switchHeader_moves moved)) ?_
  rintro ⟨init, tag⟩
  refine .bind (clauses_moves (caseClause_moves moved)) fun body => ?_
  cases tag with
  | none => exact .pure rfl
  | some tag =>
    dsimp only [Prod.map, Stmt.moveOpt]
    rw [isTypeSwitchGuard_move]
    split
    · exact .pure rfl
    · cases tag with
      | expr e => exact .pure rfl
      | _ => exact .failAt

theorem selectStmt_moves : Moves m K (selectStmt g) (selectStmt g) (Stmt.move m) :=
  .bind .expectKeyword fun _ => .bind (clauses_moves (commClause_moves moved)) fun _ => .pure rfl

def LoopHeader.move (m : Moving) : LoopHeader → LoopHeader
  | .range c => .range (c.move m)
  | .loop init cond post =>
    .loop (Stmt.moveOpt m init) (Expr.moveOpt m cond) (Stmt.moveOpt m post)

omit moved in
theorem loopCond_moves (s : Stmt) : Moves m K (loopCond s) (loopCond (s.move m)) (Expr.move m) := by
  cases s with
  | expr e => exact .pure rfl
  | _ => exact .unexpected

theorem loopRest_moves (init : Option Stmt) :
    Moves m K (loopRest g init) (loopRest g (Stmt.moveOpt m init)) (LoopHeader.move m) := by
  apply Moves.looksAt_bind
  intro b
  extract_lets withCond withCond'
  have withCond_moves : ∀ cond : Option Expr,
      Moves m anyKind (withCond cond) (withCond' (Expr.moveOpt m cond)) (LoopHeader.move m) := by
    intro cond
    refine .bind .expectSemi fun _ => .looksAt_bind fun b => ?_
    extract_lets withPost withPost'
    have withPost_moves : ∀ post : Option Stmt,
        Moves m anyKind (withPost post) (withPost' (Stmt.moveOpt m post)) (LoopHeader.move m) :=
      fun post => .pure rfl
    clear_value withPost withPost'
    split
    · exact .bind (.pure rfl) withPost_moves
    · exact .bind (.map (simpleStmt_moves moved) fun _ => rfl) withPost_moves
  clear_value withCond withCond'
  split
  · exact .bind (.pure rfl) withCond_moves
  · refine .bind (.map (.bind (simpleStmt_moves moved) loopCond_moves) fun _ => ?_) withCond_moves
    rfl

theorem loopHeader_moves : Moves m K (loopHeader g) (loopHeader g) (LoopHeader.move m) := by
  apply Moves.peek_bind
  intro k _
  split
  · exact .pure rfl
  · exact .bind .stepSemi fun _ => loopRest_moves moved none
  · refine .bind (simple_moves moved) fun first => ?_
    cases first with
    | range c => exact .pure rfl
    | stmt first =>
      refine .bind .acceptSemi fun o => ?_
      cases o with
      | some _ => exact loopRest_moves moved (some first)
      | none => exact .bind (loopCond_moves first) fun e => .pure rfl

theorem forStmt_moves : Moves m K (forStmt g) (forStmt g) (Stmt.move m) := by
  refine .bind .expectKeyword fun forPos => .bind (.enclosed (loopHeader_moves moved)) ?_
  intro header
  refine .bind moved.block fun body => ?_
  cases header with
  | range c => exact .pure rfl
  | loop init cond post => exact .pure rfl

/-! ### Statements -/

theorem returnStmt_moves (solid : ∀ k, K k → k.isSolid) :
    Moves m K (returnStmt g) (returnStmt g) (Stmt.move m) := by
  refine .bind (.step solid) fun returnPos => .peek_bind fun k _ => ?_
  split
  · exact .pure rfl
  · exact .pure rfl
  · refine .bind moved.exprList fun results => .pure ?_
    rw [Stmt.move, Expr.moveAll_eq]

omit moved in
theorem branchStmt_moves {kind : BranchKind} (solid : ∀ k, K k → k.isSolid) :
    Moves m K (branchStmt kind) (branchStmt kind) (Stmt.move m) := by
  refine .bind (.step solid) fun kwPos => .peek_bind fun k _ => ?_
  split
  · exact .pure rfl
  · exact .bind .ident fun label => .pure rfl
  · exact .pure rfl

omit moved in
theorem ended_moves {r r' : Reader Stmt} (read : Moves m K r r' (Stmt.move m)) :
    Moves m K (ended r) (ended r') (Stmt.move m) :=
  .bind read fun _ => .bind .terminator fun _ => .pure rfl

theorem plainStmt_moves : Moves m K (plainStmt g) (plainStmt g) (Stmt.move m) := by
  refine .bind (simple_moves moved) fun s => ?_
  cases s with
  | range c => exact .unexpected
  | stmt s =>
    cases s with
    | labeled label colon s => exact .pure rfl
    | _ => exact ended_moves (.pure rfl)

theorem stmtRule_moves : Moves m K (stmtRule g) (stmtRule g) (Stmt.move m) := by
  apply Moves.peek_bind
  intro k _
  split
  · exact .bind (genDecl_moves moved (isSolid_of_eq rfl)) fun d => .pure rfl
  · exact .bind (genDecl_moves moved (isSolid_of_eq rfl)) fun d => .pure rfl
  · exact .bind (genDecl_moves moved (isSolid_of_eq rfl)) fun d => .pure rfl
  · exact ended_moves (.bind (.stepAt rfl) fun goPos => .bind moved.expr fun call => .pure rfl)
  · exact ended_moves (.bind (.stepAt rfl) fun deferPos => .bind moved.expr fun call => .pure rfl)
  · exact ended_moves (returnStmt_moves moved (isSolid_of_eq rfl))
  · exact ended_moves (branchStmt_moves (isSolid_of_eq rfl))
  · exact ended_moves (branchStmt_moves (isSolid_of_eq rfl))
  · exact ended_moves (branchStmt_moves (isSolid_of_eq rfl))
  · exact ended_moves (branchStmt_moves (isSolid_of_eq rfl))
  · exact ended_moves (.bind moved.block fun b => .pure rfl)
  · exact ended_moves (moved .ifStmt)
  · exact ended_moves (switchStmt_moves moved)
  · exact ended_moves (selectStmt_moves moved)
  · exact ended_moves (forStmt_moves moved)
  · exact plainStmt_moves moved

end Rules

end GoLayout.Grammar
