import GoLayout.Grammar.Stmt
import GoLayout.Proofs.Order.Expr
import GoLayout.Proofs.Order.Extent

/-!
The rules for declarations and statements read landmarks in their order. Where a statement has room
for one expression only, the first one of a list is kept, and of the variables of a range the first
two.
-/

namespace GoLayout.Grammar

open Landmark (InOrder)

variable {P : Span → Prop} {ls : List Landmark} {K : TokenKind → Prop} {g : Readers}

/-! ### Declarations -/

theorem importSpec_passes {doc : Link} : Passes P (Passed P ls) K (importSpec doc) fun spec =>
    Closed P (ls ++ spec.landmarks) := by
  refine .peek_bind fun k _ => ?_
  extract_lets finish
  have finish_passes : ∀ name : Option ImportName,
      Passes P (Passed P (ls ++ name.toList.map ImportName.landmark)) anyKind (finish name)
        fun spec => Closed P (ls ++ spec.landmarks) := fun name =>
    .bind .stringLiteral fun path => .bind .terminator fun _ => .trail_bind fun _ => .doneClosed (by
      simp [Spec.landmarks, ImportSpec.landmarks])
  split
  · exact .bind (.stepAt rfl) fun dot => .bind (.done rfl) finish_passes
  · exact .bind .ident fun name => .bind (.done rfl) finish_passes
  · exact .bind (.done (by simp)) finish_passes

theorem opensTypeParams_passes {I : Cursor → Prop} : Passes P I K opensTypeParams fun _ => I := by
  refine .get_bind fun c => ?_
  dsimp only
  split
  all_goals exact .idle

section Rules

variable (marks : g.Marks P)

include marks

theorem valueSpec_passes {doc : Link} : Passes P (Passed P ls) K (valueSpec g doc) fun spec =>
    Closed P (ls ++ spec.landmarks) := by
  refine .bind identList_passes fun names => .given fun named => .peek_bind fun k _ => ?_
  obtain ⟨name, names, rfl⟩ := List.exists_cons_of_ne_nil named
  extract_lets withType
  have withType_passes : ∀ type : Option TypeExpr,
      Passes P (Passed P (ls ++ (name :: names).map Ident.landmark ++ TypeExpr.landmarksOpt type))
        anyKind (withType type) fun spec => Closed P (ls ++ spec.landmarks) := by
    intro type
    refine .bind (.acceptMark nofun) fun assign => ?_
    cases assign with
    | none =>
      refine .bind (J := fun values c => values = [] ∧ Passed P _ c)
        (.pure fun _ passed => ⟨rfl, passed⟩) fun values => .given ?_
      rintro rfl
      refine .bind .terminator fun _ => .trail_bind fun _ => .doneClosed ?_
      simp [Spec.landmarks]
    | some assign =>
      refine .bind marks.exprList_cons fun values => .given fun valued => ?_
      obtain ⟨value, values, rfl⟩ := List.exists_cons_of_ne_nil valued
      refine .bind .terminator fun _ => .trail_bind fun _ => .doneClosed ?_
      simp [Spec.landmarks, Expr.landmarksAll]
  split
  · exact .bind (.done (by simp [TypeExpr.landmarksOpt])) withType_passes
  · exact .bind (.done (by simp [TypeExpr.landmarksOpt])) withType_passes
  · exact .bind (.done (by simp [TypeExpr.landmarksOpt])) withType_passes
  · exact .bind (.done (by simp [TypeExpr.landmarksOpt])) withType_passes
  · exact .bind (.map marks.type) withType_passes

theorem typeSpec_passes {doc : Link} : Passes P (Passed P ls) K (typeSpec g doc) fun spec =>
    Closed P (ls ++ spec.landmarks) := by
  refine .bind .ident fun name => .looksAt_bind fun b => .bind opensTypeParams_passes fun opens => ?_
  extract_lets withParams
  have withParams_passes : ∀ params : Option FieldList,
      Passes P (Passed P (ls ++ [name.landmark] ++ FieldList.landmarksOpt params)) anyKind
        (withParams params) fun spec => Closed P (ls ++ spec.landmarks) := fun params =>
    .bind (.acceptMark nofun) fun assign => .bind marks.type fun type => .bind .terminator fun _ =>
      .trail_bind fun _ => .doneClosed (by simp [Spec.landmarks])
  split
  · exact .bind (.map (typeParams_passes marks)) withParams_passes
  · exact .bind (.done (by simp [FieldList.landmarksOpt])) withParams_passes

theorem spec_passes {kind : DeclKind} {doc : Link} : Passes P (Passed P ls) K (spec g kind doc)
    fun spec => Closed P (ls ++ spec.landmarks) := by
  cases kind with
  | imports => exact importSpec_passes
  | consts => exact valueSpec_passes marks
  | vars => exact valueSpec_passes marks
  | types => exact typeSpec_passes marks

theorem genDecl_passes {kind : DeclKind} (solid : ∀ k, K k → k.isSolid) :
    Passes P (Passed P ls) K (genDecl g kind) fun d c =>
      d.Narrow ∧ Closed P (ls ++ d.landmarks) c := by
  refine .lead_bind fun doc => .bind (.step solid) fun kwPos => .bind (.acceptMark nofun) fun o => ?_
  cases o with
  | none =>
    refine .bind (spec_passes marks) fun spec => .pure fun c closed => ⟨nofun, ?_⟩
    simpa [GenDecl.landmarks] using closed
  | some _ =>
    refine .bind (.upTo (.lead_bind fun _ => .passed (spec_passes marks)) _) fun specs => ?_
    refine .bind .expectClosing fun rparen => .given fun narrow => .bind .terminator fun _ => ?_
    refine .pure fun c closed => ⟨fun _ isRight => Option.some.inj isRight ▸ narrow, ?_⟩
    simpa [GenDecl.landmarks, Spec.landmarksAll_eq_flatMap] using closed

/-! ### Simple statements -/

def RangeClause.landmarks (c : RangeClause) : List Landmark :=
  Expr.landmarksOpt c.key ++ Expr.landmarksOpt c.value ++ c.op.toList.map (fun o => .token o.2) ++
    .token c.rangePos :: c.operand.landmarks

def Simple.landmarks : Simple → List Landmark
  | .stmt st => st.landmarks
  | .range c => c.landmarks

theorem rangeClause_passes {key value : Option Expr} {op : Option (AssignOp × Span)}
    (solid : ∀ k, K k → k.isSolid) :
    Passes P (Passed P (ls ++ Expr.landmarksOpt key ++ Expr.landmarksOpt value ++
      op.toList.map (fun o => .token o.2))) K (rangeClause g key value op) fun c =>
      Passed P (ls ++ c.landmarks) :=
  .bind (.step solid) fun rangePos => .bind marks.expr fun e => .done (by
    simp [Simple.landmarks, RangeClause.landmarks])

omit marks in
/-- The first two of some expressions are among them. -/
theorem landmarksOpt_getElem? (es : List Expr) :
    (Expr.landmarksOpt es[0]? ++ Expr.landmarksOpt es[1]?).Sublist (Expr.landmarksAll es) := by
  match es with
  | [] => exact List.Sublist.refl _
  | [e] => exact List.Sublist.refl _
  | e :: e' :: rest =>
    refine (List.Sublist.refl e.landmarks).append ?_
    exact List.sublist_append_left e'.landmarks (Expr.landmarksAll rest)

theorem assignment_passes {rangeOk : Bool} {lhs : List Expr} {op : AssignOp}
    (solid : ∀ k, K k → k.isSolid) :
    Passes P (Passed P (ls ++ Expr.landmarksAll lhs)) K (assignment g rangeOk lhs op) fun st =>
      Passed P (ls ++ st.landmarks) := by
  refine .bind (.step solid) fun opPos => .looksAt_bind fun b => ?_
  split
  · rename_i isRange
    refine Passes.behind (rangeClause_passes marks ?_) fun _ passed => passed.cut ?_
    · rintro k ⟨-, rfl⟩
      simp only [Bool.and_eq_true, beq_iff_eq] at isRange
      rw [isRange.1.2]
      rfl
    · rw [List.append_assoc ls]
      exact ((List.Sublist.refl ls).append (landmarksOpt_getElem? lhs)).append
        (List.Sublist.refl _)
  · exact .bind marks.exprList fun rhs => .done (by simp [Simple.landmarks, Stmt.landmarks])

theorem labeled_passes {label : Ident} (solid : ∀ k, K k → k.isSolid) :
    Passes P (Passed P (ls ++ [label.landmark])) K (labeled g label) fun st =>
      Passed P (ls ++ st.landmarks) := by
  refine .bind (.step solid) fun colon => .peek_bind fun k _ => ?_
  split
  · refine .here_bind fun span => .pure ?_
    rintro c ⟨passed, rfl⟩
    have more : Passed P (_ ++ [.place (.point c.current.span.start)]) c :=
      InOrder.mark passed trivial (Nat.le_refl _)
    simpa [Simple.landmarks, Stmt.landmarks] using more
  · exact .bind marks.stmt fun st => .done (by simp [Simple.landmarks, Stmt.landmarks])

/-- Only an assignment has room for all expressions of a list. -/
theorem simpleRest_passes {labelOk rangeOk : Bool} {first : Expr} {rest : List Expr} :
    Passes P (Passed P (ls ++ Expr.landmarksAll (first :: rest))) K
      (simpleRest g labelOk rangeOk first rest) fun st => Passed P (ls ++ st.landmarks) := by
  have firstOnly : ∀ c, Passed P (ls ++ Expr.landmarksAll (first :: rest)) c →
      Passed P (ls ++ first.landmarks) c := fun _ passed =>
    passed.cut ((List.Sublist.refl ls).append (List.sublist_append_left _ _))
  refine .peek_bind fun k _ => ?_
  split
  · split
    · exact .pure firstOnly
    · split
      · exact (labeled_passes marks (isSolid_of_eq rfl)).behind firstOnly
      · exact .unexpected
  · refine .bind ((Passes.stepAt rfl).behind firstOnly) fun arrow => .bind marks.expr fun value => ?_
    exact .done (by simp [Simple.landmarks, Stmt.landmarks])
  · exact .bind ((Passes.stepAt rfl).behind firstOnly) fun opPos => .done (by
      simp [Simple.landmarks, Stmt.landmarks])
  · exact .bind ((Passes.stepAt rfl).behind firstOnly) fun opPos => .done (by
      simp [Simple.landmarks, Stmt.landmarks])
  · rename_i m _ _ _ _ _
    split
    · rename_i op isOp
      exact assignment_passes marks (isSolid_of_eq (AssignOp.isSolid_of_ofMark? isOp))
    · exact .pure firstOnly
  · exact .pure firstOnly

theorem simple_passes {labelOk rangeOk : Bool} :
    Passes P (Passed P ls) K (simple g labelOk rangeOk) fun st => Passed P (ls ++ st.landmarks) := by
  refine .looksAt_bind fun b => ?_
  split
  · rename_i isRange
    refine .cast (by simp [Expr.landmarksOpt]) (rangeClause_passes marks ?_)
    rintro k ⟨-, rfl⟩
    simp only [Bool.and_eq_true, beq_iff_eq] at isRange
    rw [isRange.2]
    rfl
  · refine .bind marks.expr fun first => .bind .skipMark fun o => ?_
    extract_lets withRest
    have withRest_passes : ∀ rest : List Expr,
        Passes P (Passed P (ls ++ first.landmarks ++ Expr.landmarksAll rest)) anyKind (withRest rest)
          fun st => Passed P (ls ++ st.landmarks) := fun rest =>
      .cast (by simp [Expr.landmarksAll]) (simpleRest_passes marks)
    cases o with
    | none => exact .bind (.done (by simp [Expr.landmarksAll])) withRest_passes
    | some _ => exact .bind marks.exprList withRest_passes

theorem simpleStmt_passes : Passes P (Passed P ls) K (simpleStmt g) fun st =>
    Passed P (ls ++ st.landmarks) := by
  refine .bind (simple_passes marks) fun st => ?_
  cases st with
  | stmt st => exact .done rfl
  | range c => exact .unexpected

/-! ### Control statements -/

theorem ifHeader_passes : Passes P (Passed P ls) K (ifHeader g) fun h =>
    Passed P (ls ++ Stmt.landmarksOpt h.1 ++ h.2.landmarks) := by
  refine .looksAt_bind fun b => ?_
  extract_lets finish withFirst body
  have finish_passes : ∀ parts : Option Stmt × Option Stmt,
      Passes P (Passed P (ls ++ Stmt.landmarksOpt parts.1 ++ Stmt.landmarksOpt parts.2)) anyKind
        (finish parts) fun h => Passed P (ls ++ Stmt.landmarksOpt h.1 ++ h.2.landmarks) := by
    rintro ⟨init, cond⟩
    dsimp only [finish]
    split
    · exact .done rfl
    · exact .unexpected
  have withFirst_passes : ∀ first : Option Stmt,
      Passes P (Passed P (ls ++ Stmt.landmarksOpt first)) anyKind (withFirst first) fun h =>
        Passed P (ls ++ Stmt.landmarksOpt h.1 ++ h.2.landmarks) := by
    intro first
    refine .bind .skipMark fun o => ?_
    cases o with
    | none => exact .bind (.done (by simp [Stmt.landmarksOpt])) finish_passes
    | some _ => exact .bind (simpleStmt_passes marks) fun cond => .bind (.done rfl) finish_passes
  have body_passes : Passes P (Passed P ls) anyKind (body ()) fun h =>
      Passed P (ls ++ Stmt.landmarksOpt h.1 ++ h.2.landmarks) := by
    refine .looksAt_bind fun b => ?_
    split
    · exact .bind (.done (by simp [Stmt.landmarksOpt])) withFirst_passes
    · exact .bind (.map (simpleStmt_passes marks)) withFirst_passes
  split
  · exact .bind (J := fun _ => Passed P ls) .unexpected fun _ => body_passes
  · exact .ofAny body_passes

theorem elseBranch_passes : Passes P (Passed P ls) K (elseBranch g) fun st =>
    Passed P (ls ++ st.landmarks) := by
  refine .peek_bind fun k _ => ?_
  split
  · exact marks.ifStmt
  · exact .bind marks.block fun b => .done rfl
  · exact .unexpected

theorem ifRule_passes : Passes P (Passed P ls) K (ifRule g) fun st => Passed P (ls ++ st.landmarks) := by
  refine .bind .expectKeyword fun ifPos => ?_
  refine .bind (.enclosed (ifHeader_passes marks)) fun header => ?_
  refine .bind marks.block fun body => .bind (.acceptAny nofun) fun o => ?_
  extract_lets finish
  have finish_passes : ∀ orElse : Option Stmt,
      Passes P (Passed P (ls ++ [.token ifPos] ++ Stmt.landmarksOpt header.1 ++ header.2.landmarks ++
        body.landmarks ++ Stmt.landmarksOpt orElse)) anyKind (finish orElse) fun st =>
        Passed P (ls ++ st.landmarks) :=
    fun orElse => .done (by simp [Stmt.landmarks])
  cases o with
  | none => exact .bind (.done (by simp [Stmt.landmarksOpt])) finish_passes
  | some _ => exact .bind (.map (elseBranch_passes marks)) finish_passes

theorem switchHeader_passes : Passes P (Passed P ls) K (switchHeader g) fun h =>
    Passed P (ls ++ Stmt.landmarksOpt h.1 ++ Stmt.landmarksOpt h.2) := by
  refine .looksAt_bind fun b => ?_
  split
  · exact .done (by simp [Stmt.landmarksOpt])
  · refine .looksAt_bind fun b => ?_
    extract_lets withFirst
    have withFirst_passes : ∀ first : Option Stmt,
        Passes P (Passed P (ls ++ Stmt.landmarksOpt first)) anyKind (withFirst first) fun h =>
          Passed P (ls ++ Stmt.landmarksOpt h.1 ++ Stmt.landmarksOpt h.2) := by
      intro first
      refine .bind .skipMark fun o => ?_
      cases o with
      | none => exact .done (by simp [Stmt.landmarksOpt])
      | some _ =>
        refine .looksAt_bind fun b => ?_
        split
        · exact .done (by simp [Stmt.landmarksOpt])
        · exact .bind (simpleStmt_passes marks) fun tag => .done rfl
    split
    · exact .bind (.done (by simp [Stmt.landmarksOpt])) withFirst_passes
    · exact .bind (.map (simpleStmt_passes marks)) withFirst_passes

omit marks in
theorem clauseKeyword_passes : Passes P (Passed P ls) K clauseKeyword fun r =>
    Passed P (ls ++ [.token r.1]) := by
  refine .bind (.accept rfl) fun o => ?_
  cases o with
  | none => exact .cast (by simp) (.bind (.expect rfl) fun _ => .done rfl)
  | some _ => exact .done rfl

theorem caseClause_passes : Passes P (Passed P ls) K (caseClause g) fun st =>
    Passed P (ls ++ st.landmarks) := by
  refine .bind clauseKeyword_passes ?_
  rintro ⟨casePos, isCase⟩
  dsimp -zeta only
  extract_lets withValues
  have withValues_passes : ∀ values : List Expr,
      Passes P (Passed P (ls ++ [.token casePos] ++ Expr.landmarksAll values)) anyKind
        (withValues values) fun st => Passed P (ls ++ st.landmarks) := fun values =>
    .bind (.expectMark nofun) fun colon => .bind marks.stmtList fun body => .done (by
      simp [Stmt.landmarks])
  split
  · exact .bind marks.exprList withValues_passes
  · exact .bind (.done (by simp [Expr.landmarksAll])) withValues_passes

theorem commClause_passes : Passes P (Passed P ls) K (commClause g) fun st =>
    Passed P (ls ++ st.landmarks) := by
  refine .bind clauseKeyword_passes ?_
  rintro ⟨casePos, isCase⟩
  dsimp -zeta only
  extract_lets withComm
  have withComm_passes : ∀ comm : Option Stmt,
      Passes P (Passed P (ls ++ [.token casePos] ++ Stmt.landmarksOpt comm)) anyKind (withComm comm)
        fun st => Passed P (ls ++ st.landmarks) := fun comm =>
    .bind (.expectMark nofun) fun colon => .bind marks.stmtList fun body => .done (by
      simp [Stmt.landmarks])
  split
  · exact .bind (.map (simpleStmt_passes marks)) withComm_passes
  · exact .bind (.done (by simp [Stmt.landmarksOpt])) withComm_passes

omit marks in
theorem clauses_passes {clause : Reader Stmt}
    (h : ∀ {ls K}, Passes P (Passed P ls) K clause fun st => Passed P (ls ++ st.landmarks)) :
    Passes P (Passed P ls) K (clauses g clause) fun b => Passed P (ls ++ b.landmarks) := by
  have clause? {ls K} : Passes P (Passed P ls) K (clauses.clause? clause) fun o =>
      Passed P (ls ++ o.toList.flatMap Stmt.landmarks) := by
    refine .peek_bind fun k _ => ?_
    split
    · exact .bind h fun st => .done (by simp)
    · exact .bind h fun st => .done (by simp)
    · exact .done (by simp)
  refine .bind (.expectMark nofun) fun lbrace => .bind (.many clause? _) fun list => ?_
  exact .bind (.expectMark nofun) fun rbrace => .done (by
    simp [Block.landmarks, Stmt.landmarksAll_eq_flatMap])

theorem switchStmt_passes : Passes P (Passed P ls) K (switchStmt g) fun st =>
    Passed P (ls ++ st.landmarks) := by
  refine .bind .expectKeyword fun switchPos => ?_
  refine .bind (.enclosed (switchHeader_passes marks)) ?_
  rintro ⟨init, tag⟩
  refine .bind (clauses_passes (caseClause_passes marks)) fun body => ?_
  cases tag with
  | none => exact .done (by simp [Stmt.landmarks, Stmt.landmarksOpt, Expr.landmarksOpt])
  | some tag =>
    dsimp only
    split
    · exact .done (by simp [Stmt.landmarks, Stmt.landmarksOpt])
    · split
      · exact .done (by simp [Stmt.landmarks, Stmt.landmarksOpt, Expr.landmarksOpt])
      · exact .failAt

theorem selectStmt_passes : Passes P (Passed P ls) K (selectStmt g) fun st =>
    Passed P (ls ++ st.landmarks) :=
  .bind .expectKeyword fun _ => .bind (clauses_passes (commClause_passes marks)) fun _ => .done (by
    simp [Stmt.landmarks])

def LoopHeader.landmarks : LoopHeader → List Landmark
  | .range c => c.landmarks
  | .loop init cond post =>
    Stmt.landmarksOpt init ++ Expr.landmarksOpt cond ++ Stmt.landmarksOpt post

omit marks in
theorem loopCond_passes {st : Stmt} : Passes P (Passed P (ls ++ st.landmarks)) K (loopCond st) fun e =>
    Passed P (ls ++ e.landmarks) := by
  unfold loopCond
  split
  · exact .done rfl
  · exact .unexpected

theorem loopRest_passes (init : Option Stmt) :
    Passes P (Passed P (ls ++ Stmt.landmarksOpt init)) K (loopRest g init) fun h =>
      Passed P (ls ++ h.landmarks) := by
  refine .looksAt_bind fun b => ?_
  extract_lets withCond
  have withCond_passes : ∀ cond : Option Expr,
      Passes P (Passed P (ls ++ Stmt.landmarksOpt init ++ Expr.landmarksOpt cond)) anyKind
        (withCond cond) fun h => Passed P (ls ++ h.landmarks) := by
    intro cond
    refine .bind .expectSemi fun _ => .looksAt_bind fun b => ?_
    extract_lets withPost
    have withPost_passes : ∀ post : Option Stmt,
        Passes P (Passed P (ls ++ Stmt.landmarksOpt init ++ Expr.landmarksOpt cond ++
          Stmt.landmarksOpt post)) anyKind (withPost post) fun h => Passed P (ls ++ h.landmarks) :=
      fun post => .done (by simp [LoopHeader.landmarks])
    split
    · exact .bind (.done (by simp [Stmt.landmarksOpt])) withPost_passes
    · exact .bind (.map (simpleStmt_passes marks)) withPost_passes
  split
  · exact .bind (.done (by simp [Expr.landmarksOpt])) withCond_passes
  · refine .bind (.map ?_) withCond_passes
    exact .bind (simpleStmt_passes marks) fun st => loopCond_passes

theorem loopHeader_passes : Passes P (Passed P ls) K (loopHeader g) fun h =>
    Passed P (ls ++ h.landmarks) := by
  refine .peek_bind fun k _ => ?_
  split
  · exact .done (by simp [LoopHeader.landmarks, Stmt.landmarksOpt, Expr.landmarksOpt])
  · refine .bind (.skipAt nofun) fun _ => .cast ?_ (loopRest_passes marks none)
    simp [Stmt.landmarksOpt]
  · refine .bind (simple_passes marks) fun first => ?_
    cases first with
    | range c => exact .done rfl
    | stmt first =>
      refine .bind .skipMark fun o => ?_
      cases o with
      | some _ => exact loopRest_passes marks (some first)
      | none => exact .bind loopCond_passes fun e => .done (by
          simp [LoopHeader.landmarks, Stmt.landmarksOpt, Expr.landmarksOpt])

theorem forStmt_passes : Passes P (Passed P ls) K (forStmt g) fun st =>
    Passed P (ls ++ st.landmarks) := by
  refine .bind .expectKeyword fun forPos => ?_
  refine .bind (.enclosed (loopHeader_passes marks)) fun header => ?_
  refine .bind marks.block fun body => ?_
  cases header with
  | range c => exact .done (by simp [Stmt.landmarks, LoopHeader.landmarks, RangeClause.landmarks])
  | loop init cond post => exact .done (by simp [Stmt.landmarks, LoopHeader.landmarks])

/-! ### Statements -/

theorem returnStmt_passes (solid : ∀ k, K k → k.isSolid) :
    Passes P (Passed P ls) K (returnStmt g) fun st => Passed P (ls ++ st.landmarks) := by
  refine .bind (.step solid) fun returnPos => .peek_bind fun k _ => ?_
  split
  · exact .done (by simp [Stmt.landmarks, Expr.landmarksAll])
  · exact .done (by simp [Stmt.landmarks, Expr.landmarksAll])
  · exact .bind marks.exprList fun results => .done (by simp [Stmt.landmarks])

omit marks in
theorem branchStmt_passes {kind : BranchKind} (solid : ∀ k, K k → k.isSolid) :
    Passes P (Passed P ls) K (branchStmt kind) fun st => Passed P (ls ++ st.landmarks) := by
  refine .bind (.step solid) fun kwPos => .peek_bind fun k _ => ?_
  split
  · exact .done (by simp [Stmt.landmarks])
  · exact .bind .ident fun label => .done (by simp [Stmt.landmarks])
  · exact .done (by simp [Stmt.landmarks])

omit marks in
theorem ended_passes {I : Cursor → Prop} {r : Reader Stmt}
    (h : Passes P I K r fun st => Passed P (ls ++ st.landmarks)) :
    Passes P I K (ended r) fun st => Passed P (ls ++ st.landmarks) :=
  .bind h fun _ => .bind (.passed .terminator) fun _ => .done rfl

theorem plainStmt_passes : Passes P (Passed P ls) K (plainStmt g) fun st =>
    Passed P (ls ++ st.landmarks) := by
  refine .bind (simple_passes marks) fun st => ?_
  split
  · exact .done rfl
  · exact ended_passes (.done rfl)
  · exact .unexpected

/-- A declaration begins where its keyword does. -/
theorem localDecl_passes {kind : DeclKind} (solid : ∀ k, K k → k.isSolid) :
    Passes P (Passed P ls) K (do return Stmt.decl (← genDecl g kind)) fun st =>
      Passed P (ls ++ st.landmarks) := by
  refine .bind (genDecl_passes marks solid) fun d => .pure fun c ⟨narrow, passed, _⟩ => ?_
  obtain ⟨low, before, own⟩ := Landmark.inOrder_append.mp passed
  obtain ⟨le, own⟩ := own.from_begin (d.begins own)
  exact Landmark.inOrder_append.mpr ⟨low, before, trivial, narrow, le, own⟩

theorem stmtRule_passes : Passes P (Passed P ls) K (stmtRule g) fun st =>
    Passed P (ls ++ st.landmarks) := by
  refine .peek_bind fun k _ => ?_
  split
  · exact localDecl_passes marks (isSolid_of_eq rfl)
  · exact localDecl_passes marks (isSolid_of_eq rfl)
  · exact localDecl_passes marks (isSolid_of_eq rfl)
  · exact ended_passes (.bind (.stepAt rfl) fun goPos => .bind marks.expr fun call => .done (by
      simp [Stmt.landmarks]))
  · exact ended_passes (.bind (.stepAt rfl) fun deferPos => .bind marks.expr fun call => .done (by
      simp [Stmt.landmarks]))
  · exact ended_passes (returnStmt_passes marks (isSolid_of_eq rfl))
  · exact ended_passes (branchStmt_passes (isSolid_of_eq rfl))
  · exact ended_passes (branchStmt_passes (isSolid_of_eq rfl))
  · exact ended_passes (branchStmt_passes (isSolid_of_eq rfl))
  · exact ended_passes (branchStmt_passes (isSolid_of_eq rfl))
  · exact ended_passes (.bind marks.block fun b => .done rfl)
  · exact ended_passes marks.ifStmt
  · exact ended_passes (switchStmt_passes marks)
  · exact ended_passes (selectStmt_passes marks)
  · exact ended_passes (forStmt_passes marks)
  · exact plainStmt_passes marks

end Rules

end GoLayout.Grammar
