import GoLayout.Grammar.Stmt
import GoLayout.Proofs.Grammar.Expr

/-!
The rules for declarations and statements put the tokens they read into the tree. The one span that
is no token of the source, that of an empty statement behind a label, is the point at which the
next token begins.
-/

namespace GoLayout

def Spec.IsImport (s : Spec) : Prop := ∃ i, s = .importSpec i

/-- A declaration of imports holds nothing but imports. -/
def GenDecl.WellKinded (d : GenDecl) : Prop := d.kind = .imports → ∀ s ∈ d.specs, s.IsImport

/-- A declaration without parentheses has one spec. -/
def GenDecl.Bracketed (d : GenDecl) : Prop := d.lparen = none → d.specs.length = 1

namespace Grammar

variable {P : Span → Prop} {K : TokenKind → Prop} {g : Readers}

/-! ### Declarations -/

theorem importSpec_meets {doc : Link} :
    Meets P K (importSpec doc) fun s => s.Everywhere P ∧ s.IsImport := by
  refine .peek_bind fun k _ => ?_
  extract_lets finish
  have finish_meets : ∀ name : Option ImportName, (∀ i ∈ name, i.Everywhere P) →
      Meets P anyKind (finish name) fun s => s.Everywhere P ∧ s.IsImport :=
    fun name ofName => .bind .stringLiteral fun path ofPath => .bind .terminator fun _ _ =>
      .trail_bind fun _ => .pure ⟨⟨ofName, ofPath⟩, _, rfl⟩
  split
  · refine .bind (.stepAt rfl) fun dot here => .bind (.pure ?_) finish_meets
    rintro _ ⟨⟩
    exact here
  · refine .bind .ident fun name ofName => .bind (.pure ?_) finish_meets
    rintro _ ⟨⟩
    exact ofName
  · exact .bind (.pure nofun) finish_meets

theorem opensTypeParams_meets : Meets P K opensTypeParams fun _ => True := by
  refine .get_bind fun c => ?_
  dsimp only
  split
  all_goals exact .pure trivial

section Rules

variable (sound : g.Sound P)

include sound

theorem valueSpec_meets {doc : Link} : Meets P K (valueSpec g doc) (Spec.Everywhere P) := by
  refine .bind identList_meets fun names ofNames => .peek_bind fun k _ => ?_
  extract_lets withType
  have withType_meets : ∀ type : Option TypeExpr, TypeExpr.EverywhereOpt P type →
      Meets P anyKind (withType type) (Spec.Everywhere P) := by
    intro type ofType
    refine .bind (.acceptMark (by decide)) fun assign ofAssign => ?_
    extract_lets withValues
    have withValues_meets : ∀ values : List Expr, Expr.EverywhereAll P values →
        Meets P anyKind (withValues values) (Spec.Everywhere P) := fun values ofValues =>
      .bind .terminator fun _ _ => .trail_bind fun _ => .pure ⟨ofNames, ofType, ofAssign, ofValues⟩
    split
    · exact .bind sound.exprList withValues_meets
    · exact .bind (.pure trivial) withValues_meets
  split
  · exact .bind (.pure trivial) withType_meets
  · exact .bind (.pure trivial) withType_meets
  · exact .bind (.pure trivial) withType_meets
  · exact .bind (.pure trivial) withType_meets
  · exact .bind (.map sound.type) withType_meets

theorem typeSpec_meets {doc : Link} : Meets P K (typeSpec g doc) (Spec.Everywhere P) := by
  refine .bind .ident fun name ofName => .looksAt_bind fun b => ?_
  refine .bind opensTypeParams_meets fun opens _ => ?_
  extract_lets withParams
  have withParams_meets : ∀ params : Option FieldList, FieldList.EverywhereOpt P params →
      Meets P anyKind (withParams params) (Spec.Everywhere P) := by
    intro params ofParams
    refine .bind (.acceptMark (by decide)) fun assign ofAssign => ?_
    refine .bind sound.type fun type ofType => ?_
    refine .bind .terminator fun _ _ => .trail_bind fun _ => .pure ?_
    exact ⟨ofName, ofParams, ofAssign, ofType⟩
  split
  · exact .bind (.map (typeParams_meets sound)) withParams_meets
  · exact .bind (.pure trivial) withParams_meets

theorem spec_meets {kind : DeclKind} {doc : Link} : Meets P K (spec g kind doc) fun s =>
    s.Everywhere P ∧ (kind = .imports → s.IsImport) := by
  cases kind with
  | imports => exact importSpec_meets.mono fun s ⟨holds, isImport⟩ => ⟨holds, fun _ => isImport⟩
  | consts => exact (valueSpec_meets sound).mono fun s holds => ⟨holds, nofun⟩
  | vars => exact (valueSpec_meets sound).mono fun s holds => ⟨holds, nofun⟩
  | types => exact (typeSpec_meets sound).mono fun s holds => ⟨holds, nofun⟩

theorem genDecl_meets {kind : DeclKind} (solid : ∀ k, K k → k.isSolid) :
    Meets P K (genDecl g kind) fun d => d.Everywhere P ∧ d.WellKinded := by
  refine .lead_bind fun doc => .bind (.step solid) fun kwPos here => ?_
  refine .bind (.acceptMark (by decide)) fun o lparen => ?_
  cases o with
  | none =>
    refine .bind (spec_meets sound) fun s ⟨holds, isImport⟩ => .pure ⟨?_, ?_⟩
    · exact ⟨here, nofun, ⟨holds, trivial⟩, nofun⟩
    · simpa [GenDecl.WellKinded] using isImport
  | some s =>
    refine .bind (.upTo (.lead_bind fun _ => spec_meets sound) _) fun specs holds => ?_
    refine .bind (.expectMark (by decide)) fun rparen right => ?_
    refine .bind .terminator fun _ _ => .pure ⟨⟨here, lparen, ?_, ?_⟩, ?_⟩
    · exact Spec.everywhereAll_iff.mpr fun s mem => (holds s mem).1
    · rintro _ ⟨⟩
      exact right
    · exact fun imports s mem => (holds s mem).2 imports

theorem genDecl_bracketed {kind : DeclKind} :
    Meets P K (genDecl g kind) GenDecl.Bracketed := by
  refine .lead_bind fun doc => .bind .stepAny fun kwPos _ => ?_
  refine .bind (.acceptMark (by decide)) fun o _ => ?_
  cases o with
  | none => exact .bind (spec_meets sound) fun s _ => .pure fun _ => rfl
  | some s =>
    refine .bind (.upTo (.lead_bind fun _ => spec_meets sound) _) fun specs _ => ?_
    refine .bind (.expectMark (by decide)) fun rparen _ => .bind .terminator fun _ _ => .pure ?_
    exact nofun

/-! ### Simple statements -/

def RangeClause.Everywhere (P : Span → Prop) (c : RangeClause) : Prop :=
  Expr.EverywhereOpt P c.key ∧ Expr.EverywhereOpt P c.value ∧ (∀ o ∈ c.op, P o.2) ∧
    P c.rangePos ∧ c.operand.Everywhere P

def Simple.Everywhere (P : Span → Prop) : Simple → Prop
  | .stmt s => s.Everywhere P
  | .range c => c.Everywhere P

theorem rangeClause_meets {key value : Option Expr} {op : Option (AssignOp × Span)}
    (solid : ∀ k, K k → k.isSolid) (ofKey : Expr.EverywhereOpt P key)
    (ofValue : Expr.EverywhereOpt P value) (ofOp : ∀ o ∈ op, P o.2) :
    Meets P K (rangeClause g key value op) (Simple.Everywhere P) := by
  refine .bind (.step solid) fun rangePos here => ?_
  exact .bind sound.expr fun e holds => .pure ⟨ofKey, ofValue, ofOp, here, holds⟩

theorem assignment_meets {rangeOk : Bool} {lhs : List Expr} {op : AssignOp}
    (solid : ∀ k, K k → k.isSolid) (h : Expr.EverywhereAll P lhs) :
    Meets P K (assignment g rangeOk lhs op) (Simple.Everywhere P) := by
  refine .bind (.step solid) fun opPos here => .looksAt_bind fun b => ?_
  have member : ∀ {i : Nat}, Expr.EverywhereOpt P lhs[i]? := Expr.everywhereOpt_iff.mpr
    fun e found => Expr.everywhereAll_iff.mp h e (List.mem_of_getElem? found)
  split
  · rename_i isRange
    refine rangeClause_meets sound ?_ member member ?_
    · rintro k ⟨-, rfl⟩
      simp only [Bool.and_eq_true, beq_iff_eq] at isRange
      rw [isRange.1.2]
      rfl
    · rintro _ ⟨⟩
      exact here
  · exact .bind sound.exprList fun rhs holds => .pure ⟨h, here, holds⟩

variable (pointed : ∀ s, P s → P (.point s.start))

include pointed

theorem labeled_meets {label : Ident} (solid : ∀ k, K k → k.isSolid) (h : P label.span) :
    Meets P K (labeled g label) (Simple.Everywhere P) := by
  refine .bind (.step solid) fun colon here => .peek_bind fun k _ => ?_
  split
  · refine .here_bind (isSolid_of_eq rfl) fun s brace => .pure ?_
    exact ⟨h, here, pointed s brace⟩
  · exact .bind (sound .stmt) fun s holds => .pure ⟨h, here, holds⟩

theorem simpleRest_meets {labelOk rangeOk : Bool} {first : Expr} {rest : List Expr}
    (ofFirst : first.Everywhere P) (ofRest : Expr.EverywhereAll P rest) :
    Meets P K (simpleRest g labelOk rangeOk first rest) (Simple.Everywhere P) := by
  refine .peek_bind fun k _ => ?_
  split
  · split
    · exact .pure ofFirst
    · split
      · exact labeled_meets sound pointed (isSolid_of_eq rfl) ofFirst
      · exact .unexpected
  · refine .bind (.stepAt rfl) fun arrow here => ?_
    exact .bind sound.expr fun value ofValue => .pure ⟨ofFirst, here, ofValue⟩
  · exact .bind (.stepAt rfl) fun opPos here => .pure ⟨ofFirst, here⟩
  · exact .bind (.stepAt rfl) fun opPos here => .pure ⟨ofFirst, here⟩
  · rename_i m _ _ _ _ _
    split
    · rename_i op isOp
      exact assignment_meets sound (isSolid_of_eq (AssignOp.isSolid_of_ofMark? isOp))
        ⟨ofFirst, ofRest⟩
    · exact .pure ofFirst
  · exact .pure ofFirst

theorem simple_meets {labelOk rangeOk : Bool} :
    Meets P K (simple g labelOk rangeOk) (Simple.Everywhere P) := by
  refine .looksAt_bind fun b => ?_
  split
  · rename_i isRange
    refine rangeClause_meets sound ?_ trivial trivial nofun
    rintro k ⟨-, rfl⟩
    simp only [Bool.and_eq_true, beq_iff_eq] at isRange
    rw [isRange.2]
    rfl
  · refine .bind sound.expr fun first ofFirst => ?_
    refine .bind (.acceptMark (by decide)) fun o _ => ?_
    extract_lets withRest
    have withRest_meets : ∀ rest : List Expr, Expr.EverywhereAll P rest →
        Meets P anyKind (withRest rest) (Simple.Everywhere P) :=
      fun rest ofRest => simpleRest_meets sound pointed ofFirst ofRest
    cases o with
    | none => exact .bind (.pure trivial) withRest_meets
    | some _ => exact .bind sound.exprList withRest_meets

theorem simpleStmt_meets : Meets P K (simpleStmt g) (Stmt.Everywhere P) := by
  refine .bind (simple_meets sound pointed) fun s holds => ?_
  cases s with
  | stmt s => exact .pure holds
  | range c => exact .unexpected

/-! ### Control statements -/

theorem ifHeader_meets : Meets P K (ifHeader g) fun h =>
    Stmt.EverywhereOpt P h.1 ∧ h.2.Everywhere P := by
  refine .looksAt_bind fun b => ?_
  extract_lets finish withFirst body
  have finish_meets : ∀ parts : Option Stmt × Option Stmt,
      Stmt.EverywhereOpt P parts.1 ∧ Stmt.EverywhereOpt P parts.2 →
      Meets P anyKind (finish parts) fun h => Stmt.EverywhereOpt P h.1 ∧ h.2.Everywhere P := by
    rintro ⟨init, cond⟩ ⟨ofInit, ofCond⟩
    dsimp only [finish]
    split
    · exact .pure ⟨ofInit, ofCond⟩
    · exact .unexpected
  have withFirst_meets : ∀ first : Option Stmt, Stmt.EverywhereOpt P first →
      Meets P anyKind (withFirst first) fun h =>
        Stmt.EverywhereOpt P h.1 ∧ h.2.Everywhere P := by
    intro first ofFirst
    refine .bind .acceptSemi fun o _ => ?_
    cases o with
    | none => exact .bind (.pure ⟨trivial, ofFirst⟩) finish_meets
    | some _ =>
      refine .bind (simpleStmt_meets sound pointed) fun cond ofCond => ?_
      exact .bind (.pure ⟨ofFirst, ofCond⟩) finish_meets
  have body_meets : Meets P anyKind (body ()) fun h =>
      Stmt.EverywhereOpt P h.1 ∧ h.2.Everywhere P := by
    refine .looksAt_bind fun b => ?_
    split
    · exact .bind (.pure trivial) withFirst_meets
    · exact .bind (.map (simpleStmt_meets sound pointed)) withFirst_meets
  split
  · exact .bind .unexpected fun _ (_ : True) => body_meets
  · exact .ofAny body_meets

omit pointed in
theorem elseBranch_meets : Meets P K (elseBranch g) (Stmt.Everywhere P) := by
  refine .peek_bind fun k _ => ?_
  split
  · exact sound .ifStmt
  · exact .bind sound.block fun b holds => .pure holds
  · exact .unexpected

theorem ifRule_meets : Meets P K (ifRule g) (Stmt.Everywhere P) := by
  refine .bind .expectKeyword fun ifPos here => ?_
  refine .bind (.enclosed (ifHeader_meets sound pointed)) ?_
  rintro ⟨init, cond⟩ ⟨ofInit, ofCond⟩
  refine .bind sound.block fun body ofBody => ?_
  refine .bind (.accept rfl) fun o _ => ?_
  extract_lets finish
  have finish_meets : ∀ orElse : Option Stmt, Stmt.EverywhereOpt P orElse →
      Meets P anyKind (finish orElse) (Stmt.Everywhere P) :=
    fun orElse ofElse => .pure ⟨here, ofInit, ofCond, ofBody, ofElse⟩
  cases o with
  | none => exact .bind (.pure trivial) finish_meets
  | some _ => exact .bind (.map (elseBranch_meets sound)) finish_meets

theorem switchHeader_meets : Meets P K (switchHeader g) fun h =>
    Stmt.EverywhereOpt P h.1 ∧ Stmt.EverywhereOpt P h.2 := by
  refine .looksAt_bind fun b => ?_
  split
  · exact .pure ⟨trivial, trivial⟩
  · refine .looksAt_bind fun b => ?_
    extract_lets withFirst
    have withFirst_meets : ∀ first : Option Stmt, Stmt.EverywhereOpt P first →
        Meets P anyKind (withFirst first) fun h =>
          Stmt.EverywhereOpt P h.1 ∧ Stmt.EverywhereOpt P h.2 := by
      intro first ofFirst
      refine .bind .acceptSemi fun o _ => ?_
      cases o with
      | none => exact .pure ⟨trivial, ofFirst⟩
      | some _ =>
        refine .looksAt_bind fun b => ?_
        split
        · exact .pure ⟨ofFirst, trivial⟩
        · exact .bind (simpleStmt_meets sound pointed) fun tag ofTag => .pure ⟨ofFirst, ofTag⟩
    split
    · exact .bind (.pure trivial) withFirst_meets
    · exact .bind (.map (simpleStmt_meets sound pointed)) withFirst_meets

omit sound pointed in
theorem clauseKeyword_meets : Meets P K clauseKeyword fun c => P c.1 := by
  refine .bind (.accept rfl) fun o holds => ?_
  cases o with
  | none => exact .bind (.expect rfl) fun s here => .pure here
  | some s => exact .pure (holds s rfl)

omit pointed in
theorem caseClause_meets : Meets P K (caseClause g) (Stmt.Everywhere P) := by
  refine .bind clauseKeyword_meets ?_
  rintro ⟨casePos, isCase⟩ here
  dsimp -zeta only
  extract_lets withValues
  have withValues_meets : ∀ values : List Expr, Expr.EverywhereAll P values →
      Meets P anyKind (withValues values) (Stmt.Everywhere P) := fun values ofValues =>
    .bind (.expectMark (by decide)) fun colon there => .bind sound.stmtList fun body ofBody =>
      .pure ⟨here, ofValues, there, ofBody⟩
  split
  · exact .bind sound.exprList withValues_meets
  · exact .bind (.pure trivial) withValues_meets

theorem commClause_meets : Meets P K (commClause g) (Stmt.Everywhere P) := by
  refine .bind clauseKeyword_meets ?_
  rintro ⟨casePos, isCase⟩ here
  dsimp -zeta only
  extract_lets withComm
  have withComm_meets : ∀ comm : Option Stmt, Stmt.EverywhereOpt P comm →
      Meets P anyKind (withComm comm) (Stmt.Everywhere P) := fun comm ofComm =>
    .bind (.expectMark (by decide)) fun colon there => .bind sound.stmtList fun body ofBody =>
      .pure ⟨here, ofComm, there, ofBody⟩
  split
  · exact .bind (.map (simpleStmt_meets sound pointed)) withComm_meets
  · exact .bind (.pure trivial) withComm_meets

omit sound pointed in
theorem clauses_meets {clause : Reader Stmt} (h : ∀ {K}, Meets P K clause (Stmt.Everywhere P)) :
    Meets P K (clauses g clause) (Block.Everywhere P) := by
  have clause? {K} : Meets P K (clauses.clause? clause) fun o => ∀ s ∈ o, s.Everywhere P := by
    refine .peek_bind fun k _ => ?_
    split
    · refine .bind h fun s holds => .pure ?_
      rintro _ ⟨⟩
      exact holds
    · refine .bind h fun s holds => .pure ?_
      rintro _ ⟨⟩
      exact holds
    · exact .pure nofun
  refine .bind (.expectMark (by decide)) fun lbrace left => ?_
  refine .bind (.many clause? _) fun list holds => ?_
  refine .bind (.expectMark (by decide)) fun rbrace right => .pure ?_
  exact ⟨left, Stmt.everywhereAll_iff.mpr holds, right⟩

theorem switchStmt_meets : Meets P K (switchStmt g) (Stmt.Everywhere P) := by
  refine .bind .expectKeyword fun switchPos here => ?_
  refine .bind (.enclosed (switchHeader_meets sound pointed)) ?_
  rintro ⟨init, tag⟩ ⟨ofInit, ofTag⟩
  refine .bind (clauses_meets (caseClause_meets sound)) fun body ofBody => ?_
  cases tag with
  | none => exact .pure ⟨here, ofInit, trivial, ofBody⟩
  | some tag =>
    dsimp only
    split
    · exact .pure ⟨here, ofInit, ofTag, ofBody⟩
    · split
      · exact .pure ⟨here, ofInit, ofTag, ofBody⟩
      · exact .failAt

theorem selectStmt_meets : Meets P K (selectStmt g) (Stmt.Everywhere P) :=
  .bind .expectKeyword fun _ here => .bind (clauses_meets (commClause_meets sound pointed))
    fun _ ofBody => .pure ⟨here, ofBody⟩

def LoopHeader.Everywhere (P : Span → Prop) : LoopHeader → Prop
  | .range c => c.Everywhere P
  | .loop init cond post =>
    Stmt.EverywhereOpt P init ∧ Expr.EverywhereOpt P cond ∧ Stmt.EverywhereOpt P post

omit sound pointed in
theorem loopCond_meets {s : Stmt} (h : s.Everywhere P) :
    Meets P K (loopCond s) (Expr.Everywhere P) := by
  unfold loopCond
  split
  · exact .pure h
  · exact .unexpected

theorem loopRest_meets {init : Option Stmt} (h : Stmt.EverywhereOpt P init) :
    Meets P K (loopRest g init) (LoopHeader.Everywhere P) := by
  refine .looksAt_bind fun b => ?_
  extract_lets withCond
  have withCond_meets : ∀ cond : Option Expr, Expr.EverywhereOpt P cond →
      Meets P anyKind (withCond cond) (LoopHeader.Everywhere P) := by
    intro cond ofCond
    refine .bind .expectSemi fun _ _ => .looksAt_bind fun b => ?_
    extract_lets withPost
    have withPost_meets : ∀ post : Option Stmt, Stmt.EverywhereOpt P post →
        Meets P anyKind (withPost post) (LoopHeader.Everywhere P) :=
      fun post ofPost => .pure ⟨h, ofCond, ofPost⟩
    split
    · exact .bind (.pure trivial) withPost_meets
    · exact .bind (.map (simpleStmt_meets sound pointed)) withPost_meets
  split
  · exact .bind (.pure trivial) withCond_meets
  · refine .bind (.map ?_) withCond_meets
    exact .bind (simpleStmt_meets sound pointed) fun s holds => loopCond_meets holds

theorem loopHeader_meets : Meets P K (loopHeader g) (LoopHeader.Everywhere P) := by
  refine .peek_bind fun k _ => ?_
  split
  · exact .pure ⟨trivial, trivial, trivial⟩
  · exact .bind .stepAny fun _ _ => loopRest_meets sound pointed trivial
  · refine .bind (simple_meets sound pointed) fun first holds => ?_
    cases first with
    | range c => exact .pure holds
    | stmt first =>
      refine .bind .acceptSemi fun o _ => ?_
      cases o with
      | some _ => exact loopRest_meets sound pointed holds
      | none => exact .bind (loopCond_meets holds) fun e ofCond => .pure ⟨trivial, ofCond, trivial⟩

theorem forStmt_meets : Meets P K (forStmt g) (Stmt.Everywhere P) := by
  refine .bind .expectKeyword fun forPos here => ?_
  refine .bind (.enclosed (loopHeader_meets sound pointed)) fun header ofHeader => ?_
  refine .bind sound.block fun body ofBody => ?_
  cases header with
  | range c =>
    obtain ⟨ofKey, ofValue, ofOp, ofRange, ofOperand⟩ := ofHeader
    exact .pure ⟨here, ofKey, ofValue, ofOp, ofRange, ofOperand, ofBody⟩
  | loop init cond post =>
    obtain ⟨ofInit, ofCond, ofPost⟩ := ofHeader
    exact .pure ⟨here, ofInit, ofCond, ofPost, ofBody⟩

/-! ### Statements -/

omit pointed in
theorem returnStmt_meets (solid : ∀ k, K k → k.isSolid) :
    Meets P K (returnStmt g) (Stmt.Everywhere P) := by
  refine .bind (.step solid) fun returnPos here => .peek_bind fun k _ => ?_
  split
  · exact .pure ⟨here, trivial⟩
  · exact .pure ⟨here, trivial⟩
  · exact .bind sound.exprList fun results ofResults => .pure ⟨here, ofResults⟩

omit sound pointed in
theorem branchStmt_meets {kind : BranchKind} (solid : ∀ k, K k → k.isSolid) :
    Meets P K (branchStmt kind) (Stmt.Everywhere P) := by
  refine .bind (.step solid) fun kwPos here => .peek_bind fun k _ => ?_
  split
  · exact .pure ⟨here, nofun⟩
  · refine .bind .ident fun label ofLabel => .pure ⟨here, ?_⟩
    rintro _ ⟨⟩
    exact ofLabel
  · exact .pure ⟨here, nofun⟩

omit sound pointed in
theorem ended_meets {r : Reader Stmt} (h : Meets P K r (Stmt.Everywhere P)) :
    Meets P K (ended r) (Stmt.Everywhere P) :=
  .bind h fun _ holds => .bind .terminator fun _ _ => .pure holds

theorem plainStmt_meets : Meets P K (plainStmt g) (Stmt.Everywhere P) := by
  refine .bind (simple_meets sound pointed) fun s holds => ?_
  split
  · exact .pure holds
  · exact ended_meets (.pure holds)
  · exact .unexpected

theorem stmtRule_meets : Meets P K (stmtRule g) (Stmt.Everywhere P) := by
  refine .peek_bind fun k _ => ?_
  split
  · exact .bind (genDecl_meets sound (isSolid_of_eq rfl)) fun d holds => .pure holds.1
  · exact .bind (genDecl_meets sound (isSolid_of_eq rfl)) fun d holds => .pure holds.1
  · exact .bind (genDecl_meets sound (isSolid_of_eq rfl)) fun d holds => .pure holds.1
  · refine ended_meets (.bind (.stepAt rfl) fun goPos here => ?_)
    exact .bind sound.expr fun call ofCall => .pure ⟨here, ofCall⟩
  · refine ended_meets (.bind (.stepAt rfl) fun deferPos here => ?_)
    exact .bind sound.expr fun call ofCall => .pure ⟨here, ofCall⟩
  · exact ended_meets (returnStmt_meets sound (isSolid_of_eq rfl))
  · exact ended_meets (branchStmt_meets (isSolid_of_eq rfl))
  · exact ended_meets (branchStmt_meets (isSolid_of_eq rfl))
  · exact ended_meets (branchStmt_meets (isSolid_of_eq rfl))
  · exact ended_meets (branchStmt_meets (isSolid_of_eq rfl))
  · exact ended_meets (.bind sound.block fun b holds => .pure holds)
  · exact ended_meets (sound .ifStmt)
  · exact ended_meets (switchStmt_meets sound pointed)
  · exact ended_meets (selectStmt_meets sound pointed)
  · exact ended_meets (forStmt_meets sound pointed)
  · exact plainStmt_meets sound pointed

end Rules

end Grammar

end GoLayout
