import GoLayout.Grammar.Stmt
import GoLayout.Proofs.Form.Expr
import GoLayout.Proofs.Order.Extent

/-!
The rules for declarations and statements read formed nodes. Specs are linked to the groups that
trail them, and in the header of a control statement, which is read on a level of its own, the
statements and expressions are guarded.
-/

namespace GoLayout

open Grammar (Tape Cursor Level)

variable {tape : Tape} {level : Level} {c : Cursor}

/-- An expression as a statement on a level may have it. -/
structure Expr.On (tape : Tape) (level : Level) (e : Expr) : Prop extends e.Formed tape where
  guarded : level < 0 → e.Guarded

/-- A statement as it is read on a level, with nothing but its own expressions in the open. -/
structure Stmt.On (tape : Tape) (level : Level) (s : Stmt) : Prop where
  nodes : AllFormed tape s.nodes
  guarded : level < 0 → s.Guarded

/-- A spec as it is read. -/
structure Spec.Entered (tape : Tape) (s : Spec) : Prop where
  formed : AllFormed tape s.nodes
  plain : ∀ e ∈ s.values, e.isPlain
  linked : tape.Linked s.stop s.comment

theorem Expr.Read.on {e : Expr} (h : e.Read tape level c) : e.On tape level :=
  ⟨h.toFormed, h.guarded⟩

theorem Stmt.On.of_expr {e : Expr} (h : e.On tape level) : (Stmt.expr e).On tape level where
  nodes := .node (.stmt (List.forall_mem_singleton.mpr h.plain) nofun trivial) h.nodes
  guarded := h.guarded

theorem Stmt.On.expr {e : Expr} (h : (Stmt.expr e).On tape level) : e.On tape level := by
  obtain ⟨node, below⟩ := List.forall_mem_cons.mp h.nodes
  exact ⟨⟨below, node.parts (.free, e) (List.mem_singleton.mpr rfl)⟩, h.guarded⟩

namespace Grammar

variable {g : Readers}

/-! ### Declarations -/

theorem importSpec_forms {doc : Link} :
    Forms tape level c (importSpec doc) fun s _ => s.Entered tape := by
  refine .peek_bind ?_
  extract_lets finish
  have finish_forms (name : Option ImportName) (c : Cursor) :
      Forms tape level c (finish name) fun s _ => s.Entered tape :=
    .bind .stringLiteral fun path c behind => .bind .terminator fun _ _ linked =>
      .trail_bind (.pure ⟨.nil, nofun, linked _ behind⟩)
  split
  · exact .bind .stepAny fun dot c' _ => finish_forms (some (.dot dot)) c'
  · exact .bind .ident fun name c' _ => finish_forms (some (.name name)) c'
  · exact finish_forms none c

section Rules

variable (forms : g.Forms tape)

include forms

theorem valueSpec_forms {doc : Link} :
    Forms tape level c (valueSpec g doc) fun s _ => s.Entered tape := by
  refine .bind identList_forms fun names c' ⟨last, isLast, behind⟩ => .peek_bind ?_
  extract_lets withType
  have withType_forms (type : Option TypeExpr) (c : Cursor)
      (formed : AllFormed tape (TypeExpr.nodesOpt type))
      (behind : tape.Behind (Spec.stop (.valueSpec doc names type none [] none)) c) :
      Forms tape level c (withType type) fun s _ => s.Entered tape := by
    refine .acceptMark_bind nofun ?_ fun assign c' _ => ?_
    · show Forms tape level c (do
        terminator
        return Spec.valueSpec doc names type none [] (← trail)) _
      refine .bind .terminator fun _ _ linked => .trail_bind (.pure ?_)
      exact ⟨.append formed .nil, nofun, linked _ behind⟩
    · refine .bind forms.exprList fun values c' ⟨ofValues, plain, _, last, isLast, behind⟩ => ?_
      refine .bind .terminator fun _ _ linked => .trail_bind (.pure ?_)
      refine ⟨.append formed (.exprs ofValues), plain, ?_⟩
      rw [Spec.stop_of_values (Option.mem_def.mp isLast)]
      exact linked _ behind
  have untyped : Forms tape level c' (withType none) fun s _ => s.Entered tape := by
    refine withType_forms none c' .nil ?_
    rw [Spec.stop_of_names (Option.mem_def.mp isLast)]
    exact behind
  split
  · exact untyped
  · exact untyped
  · exact untyped
  · exact untyped
  · exact .bind (.map (M := fun o c' => ∃ t, o = some t ∧ t.Read tape c')
      (forms.type.mono fun t _ read => ⟨t, rfl, read⟩)) fun _ c' ⟨t, same, read⟩ =>
        same ▸ withType_forms (some t) c' read.formed read.behind

theorem typeSpec_forms {doc : Link} :
    Forms tape level c (typeSpec g doc) fun s _ => s.Entered tape := by
  refine .bind .ident fun name c' _ => .looksAt_bind fun b => ?_
  refine .bind (J := fun _ _ => True) ?_ fun opens c' _ => ?_
  · refine .get_bind ?_
    dsimp only
    split
    all_goals exact .pure trivial
  · extract_lets withParams
    have withParams_forms (params : Option FieldList) (c : Cursor)
        (formed : AllFormed tape (FieldList.nodesOpt params)) :
        Forms tape level c (withParams params) fun s _ => s.Entered tape := by
      refine .bind .skip fun assign _ _ => .bind forms.type fun type _ read => ?_
      refine .bind .terminator fun _ _ linked => .trail_bind (.pure ?_)
      exact ⟨.append formed read.formed, nofun, linked _ read.behind⟩
    split
    · refine .bind (.optional (typeParams_forms forms)) fun params c' read => ?_
      exact withParams_forms params c' (.listOpt fun l mem => (read l mem).formed)
    · exact withParams_forms none c' .nil

theorem spec_forms {kind : DeclKind} {doc : Link} :
    Forms tape level c (spec g kind doc) fun s _ => s.Entered tape := by
  cases kind with
  | imports => exact importSpec_forms
  | consts => exact valueSpec_forms forms
  | vars => exact valueSpec_forms forms
  | types => exact typeSpec_forms forms

theorem genDecl_forms {kind : DeclKind} :
    Forms tape level c (genDecl g kind) fun d _ => AllFormed tape d.nodes := by
  have formed {doc kwPos lparen rparen} {specs : List Spec} (h : ∀ s ∈ specs, s.Entered tape) :
      AllFormed tape (GenDecl.nodes ⟨doc, kwPos, kind, lparen, specs, rparen⟩) := by
    have linked : ∀ entry ∈ specs.map fun s => (s.stop, s.comment), tape.Linked entry.1 entry.2 :=
      List.forall_mem_map.mpr fun s mem => (h s mem).linked
    refine .node ⟨.each fun e mem => ?_, nofun, linked, trivial⟩ (.specs fun s mem => (h s mem).formed)
    obtain ⟨s, mem, inSpec⟩ := List.mem_flatMap.mp mem
    exact (h s mem).plain e inSpec
  refine .lead_bind fun doc => .bind .stepAny fun kwPos _ _ => .skip_bind ?_ fun lparen _ => ?_
  · exact .bind (spec_forms forms) fun s _ entered => .pure (formed (by simpa using entered))
  · refine .bind (.upTo (fun _ => .lead_bind fun _ => spec_forms forms) _) fun specs _ entered => ?_
    exact .bind (.expectMark nofun) fun rparen _ _ => .bind .terminator fun _ _ _ =>
      .pure (formed entered)

/-! ### Simple statements -/

omit forms in
/-- The variables and the operand of a range. -/
def RangeClause.exprs (r : RangeClause) : List Expr :=
  r.key.toList ++ r.value.toList ++ [r.operand]

omit forms in
/-- The header of a range as it is read. -/
structure RangeClause.On (tape : Tape) (level : Level) (r : RangeClause) : Prop where
  exprs : ∀ e ∈ r.exprs, e.On tape level
  assigned : r.op.isSome = r.key.isSome

omit forms in
/-- A statement or the header of a range as it is read. A labeled statement, where it is allowed,
is not part of a header. -/
def Simple.On (tape : Tape) (level : Level) (labelOk : Bool) : Simple → Prop
  | .stmt s => AllFormed tape s.nodes ∧ (labelOk = false → level < 0 → s.Guarded)
  | .range r => r.On tape level

omit forms in
theorem Simple.On.of_stmt {labelOk : Bool} {s : Stmt} (h : s.On tape level) :
    (Simple.stmt s).On tape level labelOk := ⟨h.nodes, fun _ => h.guarded⟩

theorem rangeClause_forms {labelOk : Bool} {key value : Option Expr}
    {op : Option (AssignOp × Span)} (h : ∀ e ∈ key.toList ++ value.toList, e.On tape level)
    (assigned : op.isSome = key.isSome) :
    Forms tape level c (rangeClause g key value op) fun s _ => s.On tape level labelOk := by
  refine .bind .stepAny fun rangePos _ _ => .bind forms.expr fun operand _ read => .pure ?_
  exact ⟨List.forall_mem_append.mpr ⟨h, List.forall_mem_singleton.mpr read.on⟩, assigned⟩

omit forms in
theorem ReadAll.on {es : List Expr} (h : ReadAll tape level es c) : ∀ e ∈ es, e.On tape level :=
  fun e mem => ⟨⟨h.each e mem, h.plain e mem⟩, fun low => h.guarded low e mem⟩

theorem assignment_forms {labelOk rangeOk : Bool} {lhs : List Expr} {op : AssignOp}
    (nonempty : lhs ≠ []) (h : ∀ e ∈ lhs, e.On tape level) :
    Forms tape level c (assignment g rangeOk lhs op) fun s _ => s.On tape level labelOk := by
  refine .bind .stepAny fun opPos _ _ => .looksAt_bind fun b => ?_
  split
  · have assigned : (some (op, opPos)).isSome = lhs[0]?.isSome := by
      simpa using List.length_pos_of_ne_nil nonempty
    refine rangeClause_forms forms (fun e mem => h e ?_) assigned
    rcases List.mem_append.mp mem with first | second
    · exact List.mem_of_getElem? (Option.mem_toList.mp first)
    · exact List.mem_of_getElem? (Option.mem_toList.mp second)
  · refine .bind forms.exprList fun rhs _ read => .pure (.of_stmt ?_)
    have all : ∀ e ∈ lhs ++ rhs, e.On tape level := List.forall_mem_append.mpr ⟨h, read.on⟩
    refine ⟨.node (.stmt (fun e mem => (all e mem).plain) nofun trivial) (.append ?_ ?_),
      fun low e mem => (all e mem).guarded low⟩
    · exact .exprs fun e mem => (h e mem).nodes
    · exact .exprs fun e mem => (read.on e mem).nodes

theorem labeled_forms {label : Ident} :
    Forms tape level c (labeled g label) fun s _ => s.On tape level true := by
  refine .bind .stepAny fun colon _ _ => .peek_bind ?_
  split
  · refine .here_bind (.pure ⟨.node (.stmt nofun nofun trivial) ?_, nofun⟩)
    exact .node (.stmt nofun nofun trivial) .nil
  · exact .bind forms.stmt fun s _ formed => .pure ⟨.node (.stmt nofun nofun trivial) formed, nofun⟩

theorem simpleRest_forms {labelOk rangeOk : Bool} {first : Expr} {rest : List Expr}
    (ofFirst : first.On tape level) (ofRest : ∀ e ∈ rest, e.On tape level) :
    Forms tape level c (simpleRest g labelOk rangeOk first rest) fun s _ =>
      s.On tape level labelOk := by
  have alone {c : Cursor} : Forms tape level c (return Simple.stmt (.expr first)) fun s _ =>
      s.On tape level labelOk := .pure (.of_stmt (.of_expr ofFirst))
  have counted (op : IncDecOp) : Forms tape level c
      (do return Simple.stmt (.incDec first op (← step))) fun s _ => s.On tape level labelOk :=
    .bind .stepAny fun opPos _ _ => .pure (.of_stmt ⟨.node (.stmt
      (List.forall_mem_singleton.mpr ofFirst.plain) nofun trivial) ofFirst.nodes, ofFirst.guarded⟩)
  refine .peek_bind ?_
  split
  · split
    · exact alone
    · rename_i allowed
      split
      · have ofLabel : labelOk = true := by simpa using allowed
        exact ofLabel ▸ labeled_forms forms
      · exact .unexpected
  · refine .bind .stepAny fun arrow _ _ => .bind forms.expr fun value _ read => .pure (.of_stmt ?_)
    refine ⟨.node (.stmt ?_ nofun trivial) (.append ofFirst.nodes read.formed),
      fun low => ⟨ofFirst.guarded low, read.guarded low⟩⟩
    exact List.forall_mem_cons.mpr ⟨ofFirst.plain, List.forall_mem_singleton.mpr read.plain⟩
  · exact counted .inc
  · exact counted .dec
  · split
    · exact assignment_forms forms (List.cons_ne_nil _ _) (List.forall_mem_cons.mpr ⟨ofFirst, ofRest⟩)
    · exact alone
  · exact alone

theorem simple_forms {labelOk rangeOk : Bool} :
    Forms tape level c (simple g labelOk rangeOk) fun s _ => s.On tape level labelOk := by
  refine .looksAt_bind fun b => ?_
  split
  · exact rangeClause_forms forms (by simp) rfl
  · refine .bind forms.expr fun first _ read => .skip_bind ?_ fun _ c' => ?_
    · exact simpleRest_forms forms read.on (by simp)
    · exact .bind forms.exprList fun rest _ ofRest => simpleRest_forms forms read.on ofRest.on

theorem simpleStmt_forms : Forms tape level c (simpleStmt g) fun s _ => s.On tape level := by
  refine .bind (simple_forms forms) fun s _ on => ?_
  cases s with
  | stmt s => exact .pure ⟨on.1, on.2 rfl⟩
  | range r => exact .unexpected

/-! ### Control statements -/

theorem ifHeader_forms : Forms tape level c (ifHeader g) fun h _ =>
    (∀ s ∈ h.1, s.On tape level) ∧ h.2.On tape level := by
  refine .looksAt_bind fun b => ?_
  extract_lets finish withFirst body
  have finish_forms (parts : Option Stmt × Option Stmt) (ofInit : ∀ s ∈ parts.1, s.On tape level)
      (ofCond : ∀ s ∈ parts.2, s.On tape level) (c : Cursor) :
      Forms tape level c (finish parts) fun h _ =>
        (∀ s ∈ h.1, s.On tape level) ∧ h.2.On tape level := by
    obtain ⟨init, cond⟩ := parts
    dsimp only [finish]
    split
    · exact .pure ⟨ofInit, (ofCond _ rfl).expr⟩
    · exact .unexpected
  have withFirst_forms (first : Option Stmt) (c : Cursor) (ofFirst : ∀ s ∈ first, s.On tape level) :
      Forms tape level c (withFirst first) fun h _ =>
        (∀ s ∈ h.1, s.On tape level) ∧ h.2.On tape level := by
    refine .skip_bind (finish_forms (none, first) nofun ofFirst c) fun _ _ => ?_
    refine .bind (simpleStmt_forms forms) fun cond c' on => ?_
    exact finish_forms (first, some cond) ofFirst (by simpa using on) c'
  have body_forms : Forms tape level c (body ()) fun h _ =>
      (∀ s ∈ h.1, s.On tape level) ∧ h.2.On tape level := by
    refine .looksAt_bind fun b => ?_
    split
    · exact withFirst_forms none c nofun
    · exact .bind (.optional (simpleStmt_forms forms)) withFirst_forms
  split
  · exact .bind (J := fun _ _ => False) .unexpected fun _ _ never => never.elim
  · exact body_forms

theorem elseBranch_forms : Forms tape level c (elseBranch g) fun s _ => AllFormed tape s.nodes := by
  refine .peek_bind ?_
  split
  · exact forms.ifStmt
  · exact .bind forms.block fun b _ ⟨formed, _⟩ => .pure (.node (.stmt nofun nofun trivial) formed)
  · exact .unexpected

theorem ifRule_forms : Forms tape level c (ifRule g) fun s _ => AllFormed tape s.nodes := by
  refine .bind .expectKeyword fun ifPos _ _ => ?_
  refine .bind (.enclosed (ifHeader_forms forms)) fun header _ ofHeader => ?_
  obtain ⟨init, cond⟩ := header
  obtain ⟨ofInit, ofCond⟩ := ofHeader
  have low := Enclosure.header_low level
  refine .bind forms.block fun body _ ofBlock => ?_
  have ofBody := ofBlock.1
  extract_lets finish
  have finish_forms (orElse : Option Stmt) (c : Cursor)
      (ofElse : ∀ s ∈ orElse, AllFormed tape s.nodes) :
      Forms tape level c (finish orElse) fun s _ => AllFormed tape s.nodes := by
    refine .pure (.node (.stmt (List.forall_mem_singleton.mpr ofCond.plain) ?_ trivial) ?_)
    · simp only [Stmt.heading, List.forall_mem_append, Option.mem_toList, List.forall_mem_singleton]
      exact ⟨fun s mem => (ofInit s mem).guarded low, ofCond.guarded low⟩
    · exact .append (.append (.append (.stmtOpt fun s mem => (ofInit s mem).nodes) ofCond.nodes)
        ofBody) (.stmtOpt ofElse)
  refine .skip_bind (finish_forms none _ (by simp)) fun _ _ => ?_
  exact .bind (.optional (elseBranch_forms forms)) finish_forms

theorem switchHeader_forms : Forms tape level c (switchHeader g) fun h _ =>
    (∀ s ∈ h.1, s.On tape level) ∧ ∀ s ∈ h.2, s.On tape level := by
  refine .looksAt_bind fun b => ?_
  split
  · exact .pure ⟨nofun, nofun⟩
  · refine .looksAt_bind fun b => ?_
    extract_lets withFirst
    have withFirst_forms (first : Option Stmt) (c : Cursor)
        (ofFirst : ∀ s ∈ first, s.On tape level) : Forms tape level c (withFirst first) fun h _ =>
          (∀ s ∈ h.1, s.On tape level) ∧ ∀ s ∈ h.2, s.On tape level := by
      refine .skip_bind (.pure ⟨nofun, ofFirst⟩) fun _ _ => .looksAt_bind fun b => ?_
      split
      · exact .pure ⟨ofFirst, nofun⟩
      · exact .bind (simpleStmt_forms forms) fun tag _ on => .pure ⟨ofFirst, by simpa using on⟩
    split
    · exact withFirst_forms none _ nofun
    · exact .bind (.optional (simpleStmt_forms forms)) withFirst_forms

theorem caseClause_forms : Forms tape level c (caseClause g) fun s _ => AllFormed tape s.nodes := by
  refine .bind (J := fun _ _ => True) ?_ fun (casePos, isCase) c' _ => ?_
  · refine .skip_bind ?_ fun _ _ => .pure trivial
    exact .bind (.expect rfl) fun _ _ _ => .pure trivial
  · dsimp -zeta only
    extract_lets withValues
    have withValues_forms (values : List Expr) (c : Cursor) (ofValues : ∀ e ∈ values, e.On tape level) :
        Forms tape level c (withValues values) fun s _ => AllFormed tape s.nodes := by
      refine .bind (.expectMark nofun) fun colon _ _ => .bind forms.stmtList fun body _ ofBody => ?_
      refine .pure (.node (.stmt (fun e mem => (ofValues e mem).plain) nofun trivial) (.append ?_ ofBody))
      exact .exprs fun e mem => (ofValues e mem).nodes
    split
    · exact .bind forms.exprList fun values c' read => withValues_forms values c' read.on
    · exact withValues_forms [] _ nofun

theorem commClause_forms : Forms tape level c (commClause g) fun s _ => AllFormed tape s.nodes := by
  refine .bind (J := fun _ _ => True) ?_ fun (casePos, isCase) c' _ => ?_
  · refine .skip_bind ?_ fun _ _ => .pure trivial
    exact .bind (.expect rfl) fun _ _ _ => .pure trivial
  · dsimp -zeta only
    extract_lets withComm
    have withComm_forms (comm : Option Stmt) (c : Cursor) (ofComm : ∀ s ∈ comm, s.On tape level) :
        Forms tape level c (withComm comm) fun s _ => AllFormed tape s.nodes := by
      refine .bind (.expectMark nofun) fun colon _ _ => .bind forms.stmtList fun body _ ofBody => ?_
      refine .pure (.node (.stmt nofun nofun trivial) (.append ?_ ofBody))
      exact .stmtOpt fun s mem => (ofComm s mem).nodes
    split
    · exact .bind (.optional (simpleStmt_forms forms)) withComm_forms
    · exact withComm_forms none _ nofun

omit forms in
theorem clauses_forms {clause : Reader Stmt}
    (h : ∀ c, Forms tape level c clause fun s _ => AllFormed tape s.nodes) :
    Forms tape level c (clauses g clause) fun b _ => AllFormed tape b.nodes := by
  have clause? (c : Cursor) : Forms tape level c (clauses.clause? clause) fun o _ =>
      ∀ s ∈ o, AllFormed tape s.nodes := by
    refine .peek_bind ?_
    split
    · exact .optional (h c)
    · exact .optional (h c)
    · exact .pure nofun
  refine .bind (.expectMark nofun) fun lbrace _ _ => .bind (.many clause? _) fun list _ all => ?_
  exact .bind (.expectMark nofun) fun rbrace _ _ => .pure (.stmts all)

theorem switchStmt_forms : Forms tape level c (switchStmt g) fun s _ => AllFormed tape s.nodes := by
  refine .bind .expectKeyword fun switchPos _ _ => ?_
  refine .bind (.enclosed (switchHeader_forms forms)) fun header _ ofHeader => ?_
  obtain ⟨init, tag⟩ := header
  obtain ⟨ofInit, ofTag⟩ := ofHeader
  refine .bind (clauses_forms fun _ => caseClause_forms forms) fun body _ ofBody => ?_
  have low := Enclosure.header_low level
  have inInit : AllFormed tape (Stmt.nodesOpt init) := .stmtOpt fun s mem => (ofInit s mem).nodes
  have guarded : ∀ s ∈ init.toList, s.Guarded := fun s mem =>
    (ofInit s (Option.mem_toList.mp mem)).guarded low
  cases tag with
  | none =>
    refine .pure (.node (.stmt (by simp [Stmt.exprs]) ?_ trivial)
      (.append (.append inInit .nil) ofBody))
    simpa [Stmt.heading] using guarded
  | some tag =>
    have ofTag := ofTag tag rfl
    dsimp only
    split
    · refine .pure (.node (.stmt (by simp [Stmt.exprs]) ?_ trivial)
        (.append (.append inInit ofTag.nodes) ofBody))
      exact List.forall_mem_append.mpr
        ⟨guarded, List.forall_mem_singleton.mpr (ofTag.guarded low)⟩
    · split
      · have ofExpr := ofTag.expr
        refine .pure (.node (.stmt (List.forall_mem_singleton.mpr ofExpr.plain) ?_ trivial)
          (.append (.append inInit ofExpr.nodes) ofBody))
        exact List.forall_mem_append.mpr
          ⟨guarded, List.forall_mem_singleton.mpr (ofTag.guarded low)⟩
      · exact .failAt

theorem selectStmt_forms : Forms tape level c (selectStmt g) fun s _ => AllFormed tape s.nodes :=
  .bind .expectKeyword fun _ _ _ => .bind (clauses_forms fun _ => commClause_forms forms)
    fun _ _ ofBody => .pure (.node (.stmt nofun nofun trivial) ofBody)

omit forms in
/-- The header of a loop as it is read. -/
def LoopHeader.On (tape : Tape) (level : Level) : LoopHeader → Prop
  | .range r => r.On tape level
  | .loop init cond post => (∀ s ∈ init, s.On tape level) ∧ (∀ e ∈ cond, e.On tape level) ∧
    ∀ s ∈ post, s.On tape level

omit forms in
theorem loopCond_forms {s : Stmt} (on : s.On tape level) :
    Forms tape level c (loopCond s) fun e _ => e.On tape level := by
  unfold loopCond
  split
  · exact .pure on.expr
  · exact .unexpected

theorem loopRest_forms {init : Option Stmt} (ofInit : ∀ s ∈ init, s.On tape level) :
    Forms tape level c (loopRest g init) fun h _ => h.On tape level := by
  refine .looksAt_bind fun b => ?_
  extract_lets withCond
  have withCond_forms (cond : Option Expr) (c : Cursor) (ofCond : ∀ e ∈ cond, e.On tape level) :
      Forms tape level c (withCond cond) fun h _ => h.On tape level := by
    refine .bind .expectSemi fun _ c' _ => .looksAt_bind fun b => ?_
    extract_lets withPost
    have withPost_forms (post : Option Stmt) (c : Cursor) (ofPost : ∀ s ∈ post, s.On tape level) :
        Forms tape level c (withPost post) fun h _ => h.On tape level :=
      .pure ⟨ofInit, ofCond, ofPost⟩
    split
    · exact withPost_forms none c' nofun
    · exact .bind (.optional (simpleStmt_forms forms)) withPost_forms
  split
  · exact withCond_forms none c nofun
  · exact .bind (.optional (.bind (simpleStmt_forms forms) fun _ _ on => loopCond_forms on))
      withCond_forms

theorem loopHeader_forms : Forms tape level c (loopHeader g) fun h _ => h.On tape level := by
  refine .peek_bind ?_
  split
  · exact .pure ⟨nofun, nofun, nofun⟩
  · exact .bind .stepAny fun _ _ _ => loopRest_forms forms nofun
  · refine .bind (simple_forms forms) fun first _ on => ?_
    cases first with
    | range r => exact .pure on
    | stmt first =>
      have on : first.On tape level := ⟨on.1, on.2 rfl⟩
      refine .skip_bind ?_ fun _ _ => loopRest_forms forms (by simpa using on)
      exact .bind (loopCond_forms on) fun e _ on => .pure ⟨nofun, by simpa using on, nofun⟩

theorem forStmt_forms : Forms tape level c (forStmt g) fun s _ => AllFormed tape s.nodes := by
  refine .bind .expectKeyword fun forPos _ _ => ?_
  refine .bind (.enclosed (loopHeader_forms forms)) fun header _ on => ?_
  have low := Enclosure.header_low level
  refine .bind forms.block fun body _ ⟨ofBody, _⟩ => ?_
  cases header with
  | range r =>
    obtain ⟨on, assigned⟩ := on
    refine .pure (.node (.stmt (fun e mem => (on e mem).plain) ?_ assigned) ?_)
    · exact List.forall_mem_map.mpr fun e mem => (on e mem).guarded low
    · have nodes : ∀ e ∈ r.exprs, AllFormed tape e.nodes := fun e mem => (on e mem).nodes
      simp only [RangeClause.exprs, List.forall_mem_append, Option.mem_toList,
        List.forall_mem_singleton] at nodes
      obtain ⟨⟨ofKey, ofValue⟩, ofOperand⟩ := nodes
      exact .append (.append (.append (.exprOpt ofKey) (.exprOpt ofValue)) ofOperand) ofBody
  | loop init cond post =>
    obtain ⟨ofInit, ofCond, ofPost⟩ := on
    refine .pure (.node (.stmt ?_ ?_ trivial) ?_)
    · exact fun e mem => (ofCond e (Option.mem_toList.mp mem)).plain
    · simp only [Stmt.heading, List.forall_mem_append, Option.mem_toList, List.forall_mem_map]
      exact ⟨⟨fun s mem => (ofInit s mem).guarded low,
        fun e mem => (ofCond e mem).guarded low⟩,
        fun s mem => (ofPost s mem).guarded low⟩
    · exact .append (.append (.append (.stmtOpt fun s mem => (ofInit s mem).nodes)
        (.exprOpt fun e mem => (ofCond e mem).nodes)) (.stmtOpt fun s mem => (ofPost s mem).nodes))
        ofBody

/-! ### Statements -/

theorem returnStmt_forms : Forms tape level c (returnStmt g) fun s _ => AllFormed tape s.nodes := by
  refine .bind .stepAny fun returnPos _ _ => .peek_bind ?_
  split
  · exact .pure (.node (.stmt nofun nofun trivial) .nil)
  · exact .pure (.node (.stmt nofun nofun trivial) .nil)
  · exact .bind forms.exprList fun results _ read =>
      .pure (.node (.stmt read.plain nofun trivial) (.exprs read.each))

omit forms in
theorem branchStmt_forms {kind : BranchKind} :
    Forms tape level c (branchStmt kind) fun s _ => AllFormed tape s.nodes := by
  have done (kwPos : Span) (label : Option Ident) (c : Cursor) :
      Forms tape level c (return Stmt.branch kind kwPos label) fun s _ => AllFormed tape s.nodes :=
    .pure (.node (.stmt nofun nofun trivial) .nil)
  refine .bind .stepAny fun kwPos c' _ => .peek_bind ?_
  split
  · exact done kwPos none c'
  · exact .bind .ident fun label c'' _ => done kwPos (some label) c''
  · exact done kwPos none c'

omit forms in
theorem ended_forms {r : Reader Stmt} (h : Forms tape level c r fun s _ => AllFormed tape s.nodes) :
    Forms tape level c (ended r) fun s _ => AllFormed tape s.nodes :=
  .bind h fun _ _ formed => .bind .terminator fun _ _ _ => .pure formed

theorem plainStmt_forms : Forms tape level c (plainStmt g) fun s _ => AllFormed tape s.nodes := by
  refine .bind (simple_forms forms) fun s _ on => ?_
  split
  · exact .pure on.1
  · exact ended_forms (.pure on.1)
  · exact .unexpected

theorem stmtRule_forms : Forms tape level c (stmtRule g) fun s _ => AllFormed tape s.nodes := by
  have decl (kind : DeclKind) : Forms tape level c (do return Stmt.decl (← genDecl g kind))
      fun s _ => AllFormed tape s.nodes :=
    .bind (genDecl_forms forms) fun d _ formed => .pure (.node (.stmt nofun nofun trivial) formed)
  have call (make : Span → Expr → Stmt)
      (nodes : ∀ pos e, (make pos e).nodes = .stmt (make pos e) :: e.nodes)
      (exprs : ∀ pos e, (make pos e).exprs = [e]) (heading : ∀ pos e, (make pos e).heading = [])
      (assigned : ∀ pos e, (Node.stmt (make pos e)).Assigned) :
      Forms tape level c (do
        let pos ← step
        return make pos (← g.expr)) fun s _ => AllFormed tape s.nodes := by
    refine .bind .stepAny fun pos _ _ => .bind forms.expr fun e _ read => .pure ?_
    rw [nodes]
    refine .node (.stmt ?_ ?_ (assigned pos e)) read.formed
    · exact exprs pos e ▸ List.forall_mem_singleton.mpr read.plain
    · simp [heading]
  refine .peek_bind ?_
  split
  · exact decl .consts
  · exact decl .vars
  · exact decl .types
  · exact ended_forms (call .go (fun _ _ => rfl) (fun _ _ => rfl) (fun _ _ => rfl) fun _ _ => trivial)
  · exact ended_forms (call .defer (fun _ _ => rfl) (fun _ _ => rfl) (fun _ _ => rfl) fun _ _ => trivial)
  · exact ended_forms (returnStmt_forms forms)
  · exact ended_forms branchStmt_forms
  · exact ended_forms branchStmt_forms
  · exact ended_forms branchStmt_forms
  · exact ended_forms branchStmt_forms
  · exact ended_forms (.bind forms.block fun b _ ⟨formed, _⟩ =>
      .pure (.node (.stmt nofun nofun trivial) formed))
  · exact ended_forms forms.ifStmt
  · exact ended_forms (switchStmt_forms forms)
  · exact ended_forms (selectStmt_forms forms)
  · exact ended_forms (forStmt_forms forms)
  · exact plainStmt_forms forms

end Rules

end Grammar

end GoLayout
