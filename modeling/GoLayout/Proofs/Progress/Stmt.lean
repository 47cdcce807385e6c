import GoLayout.Grammar.Stmt
import GoLayout.Proofs.Progress.Expr

/-!
The rules for declarations and statements. A statement is read through an expression or an `if`
without a step; the statements in it stand behind a token. Each spec and each clause passes a token,
though its end may pass none.
-/

namespace GoLayout.Grammar

variable {n r : Nat} {K : TokenKind → Prop} {g : Readers}

/-! ### Declarations -/

theorem importSpec_finishes {doc : Link} : Finishes n K (importSpec doc) fun _ => 1 := by
  refine .peek_bind fun k _ => ?_
  extract_lets finish
  have finish_finishes : ∀ name, Finishes n anyKind (finish name) fun _ => 1 := fun name =>
    .bindMoving .stringLiteral fun _ _ _ =>
      .bind .terminator fun _ => .trail_bind fun _ => .pure rfl
  split
  · exact .bind (.stepAt nofun) fun _ => .bind .idle finish_finishes
  · exact .bind .ident fun _ => .bind .idle finish_finishes
  · exact .bind .idle finish_finishes

theorem opensTypeParams_finishes : Finishes n K opensTypeParams fun _ => 0 := by
  refine .get_bind fun c => ?_
  dsimp only
  split
  all_goals exact .pure rfl

section Behind

variable (able : g.Able n 4)

include able

theorem valueSpec_finishes {doc : Link} : Finishes n K (valueSpec g doc) fun _ => 1 := by
  refine .bindMoving able.identList fun names m fewer => .peek_bind fun k _ => ?_
  have behind := able.next fewer
  extract_lets withType
  have withType_finishes : ∀ type, Finishes m anyKind (withType type) fun _ => 0 := by
    intro type
    refine .bind .acceptMark fun assign => ?_
    extract_lets withValues
    have withValues_finishes : ∀ values, Finishes m anyKind (withValues values) fun _ => 0 :=
      fun values => .bind .terminator fun _ => .trail_bind fun _ => .pure rfl
    split
    · exact .bind behind.exprList withValues_finishes
    · exact .bind .idle withValues_finishes
  split
  · exact .bind .idle withType_finishes
  · exact .bind .idle withType_finishes
  · exact .bind .idle withType_finishes
  · exact .bind .idle withType_finishes
  · exact .bind (.map behind.type) withType_finishes

theorem typeSpec_finishes {doc : Link} : Finishes n K (typeSpec g doc) fun _ => 1 := by
  refine .bindMoving .ident fun name m fewer => .looksAt_bind fun b => ?_
  refine .bind opensTypeParams_finishes fun opens => ?_
  have behind := able.next fewer
  extract_lets withParams
  have withParams_finishes : ∀ params, Finishes m anyKind (withParams params) fun _ => 0 :=
    fun params => .bind .acceptMark fun _ => .bind behind.type fun _ => .bind .terminator fun _ =>
      .trail_bind fun _ => .pure rfl
  split
  · exact .bind (.map (typeParams_finishes behind)) withParams_finishes
  · exact .bind .idle withParams_finishes

/-- A round over specs. -/
theorem spec_finishes {kind : DeclKind} {doc : Link} :
    Finishes n K (spec g kind doc) fun _ => 1 := by
  cases kind with
  | imports => exact importSpec_finishes
  | consts | vars => exact valueSpec_finishes able
  | types => exact typeSpec_finishes able

end Behind

theorem genDecl_finishes {kind : DeclKind} (able : g.Able n r) (noEnd : ∀ k, K k → k ≠ .eof) :
    Finishes n K (genDecl g kind) fun _ => 1 := by
  refine .lead_bind fun doc => .bindMoving (.step noEnd) fun kwPos m fewer => ?_
  have behind := able.next fewer
  refine .bind .acceptMark fun o => ?_
  cases o with
  | none => exact .bind (spec_finishes behind) fun _ => .pure rfl
  | some _ =>
    refine .bind (.upTo (.lead_bind fun _ => spec_finishes behind) behind.rounds) fun _ => ?_
    exact .bind .expectMark fun _ => .bind .terminator fun _ => .pure rfl

/-! ### Simple statements -/

theorem rangeClause_finishes {key value : Option Expr} {op : Option (AssignOp × Span)}
    (able : g.Able n r) (noEnd : ∀ k, K k → k ≠ .eof) :
    Finishes n K (rangeClause g key value op) fun _ => 1 :=
  .bindMoving (.step noEnd) fun _ _ fewer => .bind (able.next fewer).expr fun _ => .pure rfl

section Behind

variable (able : g.Able n 4)

include able

theorem assignment_finishes {rangeOk : Bool} {lhs : List Expr} {op : AssignOp}
    (noEnd : ∀ k, K k → k ≠ .eof) : Finishes n K (assignment g rangeOk lhs op) fun _ => 0 := by
  refine .bind (.step noEnd) fun opPos => .looksAt_bind fun b => ?_
  split
  · rename_i isRange
    refine (rangeClause_finishes able ?_).still
    rintro k ⟨-, rfl⟩ rfl
    simp at isRange
  · exact .bind able.exprList fun _ => .pure rfl

theorem labeled_finishes {label : Ident} (noEnd : ∀ k, K k → k ≠ .eof) :
    Finishes n K (labeled g label) fun _ => 0 := by
  refine .bind (.step noEnd) fun colon => .peek_bind fun k _ => ?_
  split
  · exact .here_bind fun _ => .pure rfl
  · exact .bind (able.read .stmt (by decide)).ofAny fun _ => .pure rfl

theorem simpleRest_finishes {labelOk rangeOk : Bool} {first : Expr} {rest : List Expr} :
    Finishes n K (simpleRest g labelOk rangeOk first rest) fun _ => 0 := by
  refine .peek_bind fun k _ => ?_
  split
  · split
    · exact .pure rfl
    · split
      · exact labeled_finishes able (ne_eof_of_eq nofun)
      · exact .unexpected
  · exact .bind (.stepAt nofun) fun _ => .bind able.expr fun _ => .pure rfl
  · exact .bind (.stepAt nofun) fun _ => .pure rfl
  · exact .bind (.stepAt nofun) fun _ => .pure rfl
  · split
    · exact assignment_finishes able (ne_eof_of_eq nofun)
    · exact .pure rfl
  · exact .pure rfl

end Behind

theorem simple_finishes {labelOk rangeOk : Bool} (able : g.Able n r) (rank : 2 < r) :
    Finishes n K (simple g labelOk rangeOk) fun _ => 1 := by
  refine .looksAt_bind fun b => ?_
  split
  · rename_i isRange
    refine rangeClause_finishes able ?_
    rintro k ⟨-, rfl⟩ rfl
    simp at isRange
  · refine .bindMoving (able.read (.binary 1) rank).ofAny fun first m fewer => ?_
    refine .bind .acceptMark fun o => ?_
    have behind := able.next fewer
    extract_lets withRest
    have withRest_finishes : ∀ rest, Finishes m anyKind (withRest rest) fun _ => 0 :=
      fun rest => simpleRest_finishes behind
    cases o with
    | none => exact .bind .idle withRest_finishes
    | some _ => exact .bind behind.exprList withRest_finishes

section Behind

variable (able : g.Able n 4)

include able

theorem simpleStmt_finishes : Finishes n K (simpleStmt g) fun _ => 1 := by
  refine .bindMoving (simple_finishes able (by decide)) fun st _ _ => ?_
  cases st with
  | stmt st => exact .pure rfl
  | range c => exact .unexpected

/-! ### Control statements -/

theorem ifHeader_finishes : Finishes n K (ifHeader g) fun _ => 0 := by
  refine .looksAt_bind fun b => ?_
  extract_lets finish withFirst body
  have finish_finishes : ∀ parts, Finishes n anyKind (finish parts) fun _ => 0 := by
    rintro ⟨init, cond⟩
    dsimp only [finish]
    split
    · exact .pure rfl
    · exact .unexpected
  have withFirst_finishes : ∀ first, Finishes n anyKind (withFirst first) fun _ => 0 := by
    intro first
    refine .bind .acceptMark fun o => ?_
    cases o with
    | none => exact .bind .idle finish_finishes
    | some _ => exact .bind (simpleStmt_finishes able) fun _ => .bind .idle finish_finishes
  have body_finishes : Finishes n anyKind (body ()) fun _ => 0 := by
    refine .looksAt_bind fun b => ?_
    split
    · exact .bind .idle withFirst_finishes
    · exact .bind (.map (simpleStmt_finishes able)) withFirst_finishes
  split
  · exact .bind (k := fun _ => 0) .unexpected fun _ => body_finishes
  · exact .ofAny body_finishes

theorem elseBranch_finishes : Finishes n K (elseBranch g) fun _ => 1 := by
  refine .peek_bind fun k _ => ?_
  split
  · exact (able.read .ifStmt (by decide)).ofAny
  · exact .bindMoving (block_finishes able) fun _ _ _ => .pure rfl
  · exact .unexpected

theorem switchHeader_finishes : Finishes n K (switchHeader g) fun _ => 0 := by
  refine .looksAt_bind fun b => ?_
  split
  · exact .pure rfl
  · refine .looksAt_bind fun b => ?_
    extract_lets withFirst
    have withFirst_finishes : ∀ first, Finishes n anyKind (withFirst first) fun _ => 0 := by
      intro first
      refine .bind .acceptMark fun o => ?_
      cases o with
      | none => exact .pure rfl
      | some _ =>
        refine .looksAt_bind fun b => ?_
        split
        · exact .pure rfl
        · exact .bind (simpleStmt_finishes able) fun _ => .pure rfl
    split
    · exact .bind .idle withFirst_finishes
    · exact .bind (.map (simpleStmt_finishes able)) withFirst_finishes

end Behind

theorem ifRule_finishes (able : g.Able n r) : Finishes n K (ifRule g) fun _ => 1 := by
  refine .bindMoving .expectKeyword fun ifPos m fewer => ?_
  have behind := able.next fewer
  refine .bind (.enclosed (ifHeader_finishes behind)) fun header => ?_
  refine .bind (block_finishes behind) fun body => .bind (.accept nofun) fun o => ?_
  extract_lets finish
  have finish_finishes : ∀ orElse, Finishes m anyKind (finish orElse) fun _ => 0 :=
    fun orElse => .pure rfl
  cases o with
  | none => exact .bind .idle finish_finishes
  | some _ => exact .bind (.map (elseBranch_finishes behind)) finish_finishes

theorem clauseKeyword_finishes : Finishes n K clauseKeyword fun _ => 1 :=
  .bindOption (.accept nofun) (.bindMoving (.expect nofun) fun _ _ _ => .pure rfl)
    fun _ _ _ => .pure rfl

section Rules

variable (able : g.Able n r)

include able

theorem caseClause_finishes : Finishes n K (caseClause g) fun _ => 1 := by
  refine .bindMoving clauseKeyword_finishes ?_
  rintro ⟨casePos, isCase⟩ m fewer
  have behind := able.next fewer
  dsimp -zeta only
  extract_lets withValues
  have withValues_finishes : ∀ values, Finishes m anyKind (withValues values) fun _ => 0 :=
    fun values => .bind .expectMark fun _ => .bind (stmtList_finishes behind) fun _ => .pure rfl
  split
  · exact .bind behind.exprList withValues_finishes
  · exact .bind .idle withValues_finishes

theorem commClause_finishes : Finishes n K (commClause g) fun _ => 1 := by
  refine .bindMoving clauseKeyword_finishes ?_
  rintro ⟨casePos, isCase⟩ m fewer
  have behind := able.next fewer
  dsimp -zeta only
  extract_lets withComm
  have withComm_finishes : ∀ comm, Finishes m anyKind (withComm comm) fun _ => 0 :=
    fun comm => .bind .expectMark fun _ => .bind (stmtList_finishes behind) fun _ => .pure rfl
  split
  · exact .bind (.map (simpleStmt_finishes behind)) withComm_finishes
  · exact .bind .idle withComm_finishes

omit able in
/-- A round over clauses. -/
theorem clause?_finishes {clause : Reader Stmt} (h : Finishes n anyKind clause fun _ => 1) :
    Finishes n K (clauses.clause? clause) ifSome := by
  refine .peek_bind fun k _ => ?_
  split
  · exact .bindMoving h.ofAny fun _ _ _ => .pure rfl
  · exact .bindMoving h.ofAny fun _ _ _ => .pure rfl
  · exact .pure rfl

theorem clauses_finishes {clause : Reader Stmt}
    (h : ∀ m, g.Able m 4 → Finishes m anyKind clause fun _ => 1) :
    Finishes n K (clauses g clause) fun _ => 1 := by
  refine .bindMoving .expectMark fun lbrace m fewer => ?_
  have behind := able.next fewer
  refine .bind (.many (clause?_finishes (h m behind)) behind.rounds) fun _ => ?_
  exact .bind .expectMark fun _ => .pure rfl

theorem switchStmt_finishes : Finishes n K (switchStmt g) fun _ => 1 := by
  refine .bindMoving .expectKeyword fun switchPos m fewer => ?_
  have behind := able.next fewer
  refine .bind (.enclosed (switchHeader_finishes behind)) ?_
  rintro ⟨init, tag⟩
  refine .bind (clauses_finishes behind fun _ => caseClause_finishes) fun body => ?_
  cases tag with
  | none => exact .pure rfl
  | some tag =>
    dsimp only
    split
    · exact .pure rfl
    · split
      · exact .pure rfl
      · exact .failAt nofun

theorem selectStmt_finishes : Finishes n K (selectStmt g) fun _ => 1 :=
  .bindMoving .expectKeyword fun _ _ fewer =>
    .bind (clauses_finishes (able.next fewer) fun _ => commClause_finishes) fun _ => .pure rfl

end Rules

theorem loopCond_finishes {st : Stmt} : Finishes n K (loopCond st) fun _ => 0 := by
  unfold loopCond
  split
  · exact .pure rfl
  · exact .unexpected

section Behind

variable (able : g.Able n 4)

include able

theorem loopRest_finishes {init : Option Stmt} : Finishes n K (loopRest g init) fun _ => 0 := by
  refine .looksAt_bind fun b => ?_
  extract_lets withCond
  have withCond_finishes : ∀ cond, Finishes n anyKind (withCond cond) fun _ => 0 := by
    intro cond
    refine .bind .expectMark fun _ => .looksAt_bind fun b => ?_
    extract_lets withPost
    have withPost_finishes : ∀ post, Finishes n anyKind (withPost post) fun _ => 0 :=
      fun post => .pure rfl
    split
    · exact .bind .idle withPost_finishes
    · exact .bind (.map (simpleStmt_finishes able)) withPost_finishes
  split
  · exact .bind .idle withCond_finishes
  · refine .bind (.map (k := fun _ => 0) ?_) withCond_finishes
    exact .bind (simpleStmt_finishes able) fun _ => loopCond_finishes

theorem loopHeader_finishes : Finishes n K (loopHeader g) fun _ => 0 := by
  refine .peek_bind fun k _ => ?_
  split
  · exact .pure rfl
  · exact .bind (.stepAt nofun) fun _ => loopRest_finishes able
  · refine .bind (simple_finishes able (by decide)) fun first => ?_
    cases first with
    | range c => exact .pure rfl
    | stmt first =>
      refine .bind .acceptMark fun o => ?_
      cases o with
      | some _ => exact loopRest_finishes able
      | none => exact .bind loopCond_finishes fun _ => .pure rfl

end Behind

theorem forStmt_finishes (able : g.Able n r) : Finishes n K (forStmt g) fun _ => 1 := by
  refine .bindMoving .expectKeyword fun forPos m fewer => ?_
  have behind := able.next fewer
  refine .bind (.enclosed (loopHeader_finishes behind)) fun header => ?_
  refine .bind (block_finishes behind) fun body => ?_
  cases header with
  | range c => exact .pure rfl
  | loop init cond post => exact .pure rfl

/-! ### Statements -/

theorem returnStmt_finishes (able : g.Able n r) (noEnd : ∀ k, K k → k ≠ .eof) :
    Finishes n K (returnStmt g) fun _ => 1 := by
  refine .bindMoving (.step noEnd) fun returnPos m fewer => .peek_bind fun k _ => ?_
  split
  · exact .pure rfl
  · exact .pure rfl
  · exact .bind (able.next fewer).exprList fun _ => .pure rfl

theorem branchStmt_finishes {kind : BranchKind} (noEnd : ∀ k, K k → k ≠ .eof) :
    Finishes n K (branchStmt kind) fun _ => 1 := by
  refine .bindMoving (.step noEnd) fun kwPos m fewer => .peek_bind fun k _ => ?_
  split
  · exact .pure rfl
  · exact .bind .ident fun _ => .pure rfl
  · exact .pure rfl

theorem ended_finishes {r : Reader Stmt} {moved : Nat} (h : Finishes n K r fun _ => moved) :
    Finishes n K (ended r) fun _ => moved :=
  .bindMoving h fun _ _ _ => .bind .terminator fun _ => .pure (Nat.sub_self moved)

theorem plainStmt_finishes (able : g.Able n r) (rank : 2 < r) :
    Finishes n K (plainStmt g) fun _ => 1 := by
  refine .bindMoving (simple_finishes able rank) fun st _ _ => ?_
  split
  · exact .pure rfl
  · exact ended_finishes .idle
  · exact .unexpected

theorem stmtRule_finishes (able : g.Able n r) (rank : 2 < r) :
    Finishes n K (stmtRule g) fun _ => 1 := by
  have noEnd {kw : Keyword} : ∀ k, k = TokenKind.keyword kw → k ≠ .eof := ne_eof_of_eq nofun
  refine .peek_bind fun k _ => ?_
  split
  · exact .bindMoving (genDecl_finishes able noEnd) fun _ _ _ => .pure rfl
  · exact .bindMoving (genDecl_finishes able noEnd) fun _ _ _ => .pure rfl
  · exact .bindMoving (genDecl_finishes able noEnd) fun _ _ _ => .pure rfl
  · exact ended_finishes (.bindMoving (.step noEnd) fun _ _ fewer =>
      .bind (able.next fewer).expr fun _ => .pure rfl)
  · exact ended_finishes (.bindMoving (.step noEnd) fun _ _ fewer =>
      .bind (able.next fewer).expr fun _ => .pure rfl)
  · exact ended_finishes (returnStmt_finishes able noEnd)
  · exact ended_finishes (branchStmt_finishes noEnd)
  · exact ended_finishes (branchStmt_finishes noEnd)
  · exact ended_finishes (branchStmt_finishes noEnd)
  · exact ended_finishes (branchStmt_finishes noEnd)
  · exact ended_finishes (.bindMoving (block_finishes able) fun _ _ _ => .pure rfl)
  · exact ended_finishes (able.read .ifStmt (by simp only [Phrase.rank]; omega)).ofAny
  · exact ended_finishes (switchStmt_finishes able)
  · exact ended_finishes (selectStmt_finishes able)
  · exact ended_finishes (forStmt_finishes able)
  · exact plainStmt_finishes able rank

end GoLayout.Grammar
