import GoLayout.Grammar.Stmt
import GoLayout.Proofs.Words.Expr

/-!
The rules for declarations take all words of the tokens they pass. Those for statements take them in
their order too, but where a statement has room for one expression, only the first one of a list
is kept, and of the variables of a range the first two.
-/

namespace GoLayout

theorem ImportSpec.words_mk (doc : Link) (name : Option ImportName) (path : Literal)
    (comment : Link) : (ImportSpec.mk doc name path comment).words =
      (match name with
        | some (.name id) => [id.word]
        | _ => []) ++ [path.word] := by
  cases name with
  | none => rfl
  | some name => cases name <;> rfl

namespace Grammar

attribute [local simp] Expr.wordsOpt Expr.nodesOpt Expr.wordsAll Expr.nodesAll TypeExpr.wordsOpt
  TypeExpr.nodesOpt FieldList.wordsOpt FieldList.nodesOpt Stmt.words Stmt.nodes Stmt.wordsOpt
  Stmt.nodesOpt Block.words Block.nodes Spec.words Spec.nodes Spec.wordsAll Spec.nodesAll
  GenDecl.words GenDecl.nodes

variable {s : Scope} {acc : Account} {K : TokenKind → Prop} {g : Readers}

/-! ### Declarations -/

theorem importSpec_takes {doc : Link} : Takes (Drawn s acc) K (importSpec doc) fun spec =>
    Drawn s (acc.add spec.nodes spec.words) := by
  refine .peek_bind fun k _ => ?_
  extract_lets finish
  have finish_takes : ∀ name : Option ImportName,
      Takes (Drawn s (acc.add [] (match name with
        | some (.name id) => [id.word]
        | _ => []))) anyKind (finish name) fun spec =>
          Drawn s (acc.add spec.nodes spec.words) := fun name =>
    .bind .stringLiteral fun path => .bind .terminator fun _ => .trail_bind fun _ => .done (by
      simp [ImportSpec.words_mk])
  split
  · exact .bind (.stepAt rfl) fun dot => .bind (.done (by simp)) finish_takes
  · exact .bind .ident fun name => .bind (.done rfl) finish_takes
  · exact .bind (.done (by simp)) finish_takes

theorem opensTypeParams_takes : Takes (Drawn s acc) K opensTypeParams fun _ => Drawn s acc := by
  refine .get_bind fun c => ?_
  dsimp only
  split
  all_goals exact .idle

section Rules

variable (keeps : g.Keeps)

include keeps

theorem valueSpec_takes {doc : Link} : Takes (Drawn s acc) K (valueSpec g doc) fun spec =>
    Drawn s (acc.add spec.nodes spec.words) := by
  refine .bind identList_takes fun names => .peek_bind fun k _ => ?_
  extract_lets withType
  have withType_takes : ∀ type : Option TypeExpr,
      Takes (Drawn s (acc.add [] (names.map Ident.word)
          |>.add (TypeExpr.nodesOpt type) (TypeExpr.wordsOpt type)))
        anyKind (withType type) fun spec => Drawn s (acc.add spec.nodes spec.words) := by
    intro type
    refine .bind .acceptMark fun assign => ?_
    extract_lets withValues
    have withValues_takes : ∀ values : List Expr,
        Takes (Drawn s (acc.add [] (names.map Ident.word)
            |>.add (TypeExpr.nodesOpt type) (TypeExpr.wordsOpt type)
            |>.add (Expr.nodesAll values) (Expr.wordsAll values)))
          anyKind (withValues values) fun spec =>
            Drawn s (acc.add spec.nodes spec.words) := fun values =>
      .bind .terminator fun _ => .trail_bind fun _ => .done (by simp)
    split
    · exact .bind keeps.exprList withValues_takes
    · exact .bind (.done (by simp)) withValues_takes
  split
  · exact .bind (.done (by simp)) withType_takes
  · exact .bind (.done (by simp)) withType_takes
  · exact .bind (.done (by simp)) withType_takes
  · exact .bind (.done (by simp)) withType_takes
  · exact .bind (.map keeps.type) withType_takes

theorem typeSpec_takes {doc : Link} : Takes (Drawn s acc) K (typeSpec g doc) fun spec =>
    Drawn s (acc.add spec.nodes spec.words) := by
  refine .bind .ident fun name => .looksAt_bind fun b => .bind opensTypeParams_takes fun opens => ?_
  extract_lets withParams
  have withParams_takes : ∀ params : Option FieldList,
      Takes (Drawn s (acc.add [] [name.word]
          |>.add (FieldList.nodesOpt params) (FieldList.wordsOpt params)))
        anyKind (withParams params) fun spec =>
          Drawn s (acc.add spec.nodes spec.words) := fun params =>
    .bind .acceptMark fun assign => .bind keeps.type fun type => .bind .terminator fun _ =>
      .trail_bind fun _ => .done (by simp)
  split
  · exact .bind (.map (typeParams_takes keeps)) withParams_takes
  · exact .bind (.done (by simp)) withParams_takes

theorem spec_takes {kind : DeclKind} {doc : Link} : Takes (Drawn s acc) K (spec g kind doc)
    fun spec => Drawn s (acc.add spec.nodes spec.words) := by
  cases kind with
  | imports => exact importSpec_takes
  | consts => exact valueSpec_takes keeps
  | vars => exact valueSpec_takes keeps
  | types => exact typeSpec_takes keeps

theorem genDecl_takes {kind : DeclKind} (silent : ∀ k, K k → isSilent k) :
    Takes (Drawn s acc) K (genDecl g kind) fun d => Drawn s (acc.add d.nodes d.words) := by
  refine .lead_bind fun doc => .bind (.stepSilent silent) fun kwPos => .bind .acceptMark fun o => ?_
  cases o with
  | none => exact .bind (spec_takes keeps) fun spec => .done (by simp)
  | some _ =>
    refine .bind (.upTo (.lead_bind fun _ => spec_takes keeps) _) fun specs => ?_
    refine .bind .expectMark fun rparen => .bind .terminator fun _ => .done ?_
    simp [Spec.nodesAll_eq_flatMap, Spec.wordsAll_eq_flatMap]

/-! ### Simple statements

Where there is room for one expression, it is read like a statement of its own. -/

def RangeClause.words (c : RangeClause) : List Word :=
  Expr.wordsOpt c.key ++ Expr.wordsOpt c.value ++ c.operand.words

def RangeClause.nodes (c : RangeClause) : List Node :=
  Expr.nodesOpt c.key ++ Stmt.nodesOpt (c.value.map .expr) ++ c.operand.nodes

def Simple.words : Simple → List Word
  | .stmt st => st.words
  | .range c => c.words

def Simple.nodes : Simple → List Node
  | .stmt st => st.nodes
  | .range c => c.nodes

attribute [local simp] RangeClause.words RangeClause.nodes Simple.words Simple.nodes

theorem rangeClause_takes {key value : Option Expr} {op : Option (AssignOp × Span)}
    (silent : ∀ k, K k → isSilent k) :
    Takes (Drawn .body (acc.add (Expr.nodesOpt key) (Expr.wordsOpt key)
        |>.add (Stmt.nodesOpt (value.map .expr)) (Expr.wordsOpt value)))
      K (rangeClause g key value op) fun c => Drawn .body (acc.add c.nodes c.words) :=
  .bind (.stepSilent silent) fun rangePos => .bind keeps.expr fun e => .done (by simp)

omit keeps in
/-- Of the expressions before `range` there is room for two. -/
theorem trims_range {lhs : List Expr} {ts : List Token} (crowded : Crowded Expr.stop lhs ts) :
    (acc.add (Expr.nodesAll lhs) (Expr.wordsAll lhs)).Trims ts
      (acc.add (Expr.nodesOpt lhs[0]?) (Expr.wordsOpt lhs[0]?)
        |>.add (Stmt.nodesOpt (lhs[1]?.map .expr)) (Expr.wordsOpt lhs[1]?)) := by
  match lhs with
  | [] => simpa using .refl
  | [key] => simpa using .refl
  | [key, value] => exact .roomier (.one value.stop) trivial (by simp) (by simp [or_left_comm])
  | key :: value :: more :: rest =>
    refine .misfit (.one value.stop) trivial (crowded value (by simp)) ?_ (by simp) ?_
    · simp
    · simp
      grind

theorem assignment_takes {rangeOk : Bool} {lhs : List Expr} {op : AssignOp}
    (silent : ∀ k, K k → isSilent k) :
    Takes (fun ts => Drawn .body (acc.add (Expr.nodesAll lhs) (Expr.wordsAll lhs)) ts ∧
        Crowded Expr.stop lhs ts)
      K (assignment g rangeOk lhs op) fun st => Drawn .body (acc.add st.nodes st.words) := by
  refine .bind (.keep (.stepSilent silent) fun _ _ => .append) fun opPos => ?_
  refine .looksAt_bind fun b => ?_
  split
  · rename_i isRange
    refine Takes.behind (rangeClause_takes keeps ?_) fun ts ⟨drawn, crowded⟩ =>
      drawn.trimBody (trims_range crowded)
    rintro k ⟨-, rfl⟩
    simp only [Bool.and_eq_true, beq_iff_eq] at isRange
    rw [isRange.1.2]
    rfl
  · exact .bind (keeps.exprList.behind fun ts h => h.1) fun rhs => .done (by simp)

theorem labeled_takes {label : Ident} (silent : ∀ k, K k → isSilent k) :
    Takes (Drawn .body (acc.add (Stmt.expr (.ident label)).nodes [label.word])) K (labeled g label)
      fun st => Drawn .body (acc.add st.nodes st.words) := by
  refine .bind (.stepSilent silent) fun colon => .peek_bind fun k _ => ?_
  split
  · exact .here_bind fun span => .done (by simp [Expr.nodes, Expr.stop])
  · exact .bind keeps.stmt fun st => .done (by simp [Expr.nodes, Expr.stop])

omit keeps in
/-- Of the expressions of a list there is room for the first one. -/
theorem trims_first {first : Expr} {rest : List Expr} {ts : List Token}
    (crowded : Crowded Expr.stop (first :: rest) ts) :
    (acc.add (Expr.nodesAll (first :: rest)) (Expr.wordsAll (first :: rest))).Trims ts
      (acc.add (Stmt.expr first).nodes first.words) := by
  cases rest with
  | nil => exact .roomier (.one first.stop) trivial (by simp) (by simp [or_left_comm])
  | cons more rest =>
    refine .misfit (.one first.stop) trivial (crowded first (by simp)) ?_ (by simp) ?_
    · simp
    · simp
      grind

/-- Only an assignment has room for all expressions of a list. -/
theorem simpleRest_takes {labelOk rangeOk : Bool} {first : Expr} {rest : List Expr} :
    Takes (fun ts => Drawn .body
        (acc.add (Expr.nodesAll (first :: rest)) (Expr.wordsAll (first :: rest))) ts ∧
        Crowded Expr.stop (first :: rest) ts)
      K (simpleRest g labelOk rangeOk first rest) fun st =>
        Drawn .body (acc.add st.nodes st.words) := by
  have firstOnly : ∀ ts, Drawn .body
      (acc.add (Expr.nodesAll (first :: rest)) (Expr.wordsAll (first :: rest))) ts ∧
        Crowded Expr.stop (first :: rest) ts →
      Drawn .body (acc.add (Stmt.expr first).nodes first.words) ts := fun ts ⟨drawn, crowded⟩ =>
    drawn.trimBody (trims_first crowded)
  refine .peek_bind fun k _ => ?_
  split
  · split
    · exact .pure firstOnly
    · split
      · exact (labeled_takes keeps (isSilent_of_eq rfl)).behind firstOnly
      · exact .unexpected
  · refine .bind ((Takes.stepAt rfl).behind firstOnly) fun arrow => .bind keeps.expr fun value => ?_
    exact .done (by simp)
  · exact .bind ((Takes.stepAt rfl).behind firstOnly) fun opPos => .done rfl
  · exact .bind ((Takes.stepAt rfl).behind firstOnly) fun opPos => .done rfl
  · split
    · exact assignment_takes keeps (isSilent_of_eq rfl)
    · exact .pure firstOnly
  · exact .pure firstOnly

theorem simple_takes {labelOk rangeOk : Bool} :
    Takes (Drawn .body acc) K (simple g labelOk rangeOk) fun st =>
      Drawn .body (acc.add st.nodes st.words) := by
  refine .looksAt_bind fun b => ?_
  split
  · rename_i isRange
    refine .cast (by simp) (rangeClause_takes keeps ?_)
    rintro k ⟨-, rfl⟩
    simp only [Bool.and_eq_true, beq_iff_eq] at isRange
    rw [isRange.2]
    rfl
  · refine .bind keeps.stoppingExpr fun first => .bind (.acceptComma first.stop) fun o => ?_
    extract_lets withRest
    have withRest_takes : ∀ rest : List Expr,
        Takes (fun ts => Drawn .body (acc.add first.nodes first.words
            |>.add (Expr.nodesAll rest) (Expr.wordsAll rest)) ts ∧
            Crowded Expr.stop (first :: rest) ts)
          anyKind (withRest rest) fun st => Drawn .body (acc.add st.nodes st.words) := fun rest =>
      (simpleRest_takes keeps).behind fun ts h => by simpa using h
    cases o with
    | none =>
      refine .bind ?_ withRest_takes
      exact .pure fun ts h => ⟨by simpa using h.1, .single⟩
    | some _ =>
      refine .bind ((Takes.keep keeps.crowdedList (P := fun ts => ¬ (Room.one first.stop).Fits ts)
        fun ts ts' misfit fits => misfit fits.of_append).behind fun ts h => ⟨h.1, h.2 rfl⟩)
        fun rest => (withRest_takes rest).behind fun ts h => ⟨h.1.1, h.1.2.cons h.2⟩

theorem simpleStmt_takes : Takes (Drawn .body acc) K (simpleStmt g) fun st =>
    Drawn .body (acc.add st.nodes st.words) := by
  refine .bind (simple_takes keeps) fun st => ?_
  cases st with
  | stmt st => exact .done rfl
  | range c => exact .unexpected

/-! ### Control statements -/

theorem ifHeader_takes : Takes (Drawn .body acc) K (ifHeader g) fun h =>
    Drawn .body (acc.add (Stmt.nodesOpt h.1) (Stmt.wordsOpt h.1)
      |>.add (Stmt.expr h.2).nodes h.2.words) := by
  refine .looksAt_bind fun b => ?_
  extract_lets finish withFirst body
  have finish_takes : ∀ parts : Option Stmt × Option Stmt,
      Takes (Drawn .body (acc.add (Stmt.nodesOpt parts.1) (Stmt.wordsOpt parts.1)
          |>.add (Stmt.nodesOpt parts.2) (Stmt.wordsOpt parts.2)))
        anyKind (finish parts) fun h =>
          Drawn .body (acc.add (Stmt.nodesOpt h.1) (Stmt.wordsOpt h.1)
            |>.add (Stmt.expr h.2).nodes h.2.words) := by
    rintro ⟨init, cond⟩
    dsimp only [finish]
    split
    · exact .done (by simp)
    · exact .unexpected
  have withFirst_takes : ∀ first : Option Stmt,
      Takes (Drawn .body (acc.add (Stmt.nodesOpt first) (Stmt.wordsOpt first))) anyKind
        (withFirst first) fun h =>
          Drawn .body (acc.add (Stmt.nodesOpt h.1) (Stmt.wordsOpt h.1)
            |>.add (Stmt.expr h.2).nodes h.2.words) := by
    intro first
    refine .bind .acceptMark fun o => ?_
    cases o with
    | none => exact .bind (.done (by simp)) finish_takes
    | some _ => exact .bind (simpleStmt_takes keeps) fun cond => .bind (.done rfl) finish_takes
  have body_takes : Takes (Drawn .body acc) anyKind (body ()) fun h =>
      Drawn .body (acc.add (Stmt.nodesOpt h.1) (Stmt.wordsOpt h.1)
        |>.add (Stmt.expr h.2).nodes h.2.words) := by
    refine .looksAt_bind fun b => ?_
    split
    · exact .bind (.done (by simp)) withFirst_takes
    · exact .bind (.map (simpleStmt_takes keeps)) withFirst_takes
  split
  · exact .bind (J := fun _ => Drawn .body acc) .unexpected fun _ => body_takes
  · exact .ofAny body_takes

theorem elseBranch_takes : Takes (Drawn .body acc) K (elseBranch g) fun st =>
    Drawn .body (acc.add st.nodes st.words) := by
  refine .peek_bind fun k _ => ?_
  split
  · exact keeps.ifStmt
  · exact .bind keeps.block fun b => .done rfl
  · exact .unexpected

theorem ifRule_takes : Takes (Drawn .body acc) K (ifRule g) fun st =>
    Drawn .body (acc.add st.nodes st.words) := by
  refine .bind .expectKeyword fun ifPos => ?_
  refine .bind (.enclosed (ifHeader_takes keeps)) fun header => ?_
  refine .bind keeps.block fun body => .bind (.accept rfl) fun o => ?_
  extract_lets finish
  have finish_takes : ∀ orElse : Option Stmt,
      Takes (Drawn .body (acc.add (Stmt.nodesOpt header.1) (Stmt.wordsOpt header.1)
          |>.add (Stmt.expr header.2).nodes header.2.words |>.add body.nodes body.words
          |>.add (Stmt.nodesOpt orElse) (Stmt.wordsOpt orElse)))
        anyKind (finish orElse) fun st => Drawn .body (acc.add st.nodes st.words) := fun orElse =>
    .roomier (.one header.2.stop) (fun _ => trivial) (by simp) (by simp; grind)
  cases o with
  | none => exact .bind (.done (by simp)) finish_takes
  | some _ => exact .bind (.map (elseBranch_takes keeps)) finish_takes

theorem switchHeader_takes : Takes (Drawn .body acc) K (switchHeader g) fun h =>
    Drawn .body (acc.add (Stmt.nodesOpt h.1) (Stmt.wordsOpt h.1)
      |>.add (Stmt.nodesOpt h.2) (Stmt.wordsOpt h.2)) := by
  refine .looksAt_bind fun b => ?_
  split
  · exact .done (by simp)
  · refine .looksAt_bind fun b => ?_
    extract_lets withFirst
    have withFirst_takes : ∀ first : Option Stmt,
        Takes (Drawn .body (acc.add (Stmt.nodesOpt first) (Stmt.wordsOpt first))) anyKind
          (withFirst first) fun h =>
            Drawn .body (acc.add (Stmt.nodesOpt h.1) (Stmt.wordsOpt h.1)
              |>.add (Stmt.nodesOpt h.2) (Stmt.wordsOpt h.2)) := by
      intro first
      refine .bind .acceptMark fun o => ?_
      cases o with
      | none => exact .done (by simp)
      | some _ =>
        refine .looksAt_bind fun b => ?_
        split
        · exact .done (by simp)
        · exact .bind (simpleStmt_takes keeps) fun tag => .done rfl
    split
    · exact .bind (.done (by simp)) withFirst_takes
    · exact .bind (.map (simpleStmt_takes keeps)) withFirst_takes

omit keeps in
theorem clauseKeyword_takes : Takes (Drawn s acc) K clauseKeyword fun _ => Drawn s acc := by
  refine .bind (.accept rfl) fun o => ?_
  cases o with
  | none => exact .bind (.expect rfl) fun _ => .idle
  | some _ => exact .idle

theorem caseClause_takes : Takes (Drawn .body acc) K (caseClause g) fun st =>
    Drawn .body (acc.add st.nodes st.words) := by
  refine .bind clauseKeyword_takes ?_
  rintro ⟨casePos, isCase⟩
  dsimp -zeta only
  extract_lets withValues
  have withValues_takes : ∀ values : List Expr,
      Takes (Drawn .body (acc.add (Expr.nodesAll values) (Expr.wordsAll values))) anyKind
        (withValues values) fun st => Drawn .body (acc.add st.nodes st.words) := fun values =>
    .bind .expectMark fun colon => .bind keeps.stmtList fun body => .done (by simp)
  split
  · exact .bind keeps.exprList withValues_takes
  · exact .bind (.done (by simp)) withValues_takes

theorem commClause_takes : Takes (Drawn .body acc) K (commClause g) fun st =>
    Drawn .body (acc.add st.nodes st.words) := by
  refine .bind clauseKeyword_takes ?_
  rintro ⟨casePos, isCase⟩
  dsimp -zeta only
  extract_lets withComm
  have withComm_takes : ∀ comm : Option Stmt,
      Takes (Drawn .body (acc.add (Stmt.nodesOpt comm) (Stmt.wordsOpt comm))) anyKind
        (withComm comm) fun st => Drawn .body (acc.add st.nodes st.words) := fun comm =>
    .bind .expectMark fun colon => .bind keeps.stmtList fun body => .done (by simp)
  split
  · exact .bind (.map (simpleStmt_takes keeps)) withComm_takes
  · exact .bind (.done (by simp)) withComm_takes

omit keeps in
theorem clauses_takes {clause : Reader Stmt}
    (h : ∀ {acc K}, Takes (Drawn .body acc) K clause fun st =>
      Drawn .body (acc.add st.nodes st.words)) :
    Takes (Drawn .body acc) K (clauses g clause) fun b =>
      Drawn .body (acc.add b.nodes b.words) := by
  have clause? {acc K} : Takes (Drawn .body acc) K (clauses.clause? clause) fun o =>
      Drawn .body (acc.add (o.toList.flatMap Stmt.nodes) (o.toList.flatMap Stmt.words)) := by
    refine .peek_bind fun k _ => ?_
    split
    · exact .bind h fun st => .done (by simp)
    · exact .bind h fun st => .done (by simp)
    · exact .done (by simp)
  refine .bind .expectMark fun lbrace => .bind (.many clause? _) fun list => ?_
  exact .bind .expectMark fun rbrace => .done (by
    simp [Stmt.nodesAll_eq_flatMap, Stmt.wordsAll_eq_flatMap])

theorem switchStmt_takes : Takes (Drawn .body acc) K (switchStmt g) fun st =>
    Drawn .body (acc.add st.nodes st.words) := by
  refine .bind .expectKeyword fun switchPos => ?_
  refine .bind (.enclosed (switchHeader_takes keeps)) ?_
  rintro ⟨init, tag⟩
  refine .bind (clauses_takes (caseClause_takes keeps)) fun body => ?_
  cases tag with
  | none => exact .done (by simp)
  | some tag =>
    dsimp only
    split
    · exact .done (by simp)
    · split
      · rename_i tag _
        exact .roomier (.one tag.stop) (fun _ => trivial) (by simp) (by simp; grind)
      · exact .failAt

theorem selectStmt_takes : Takes (Drawn .body acc) K (selectStmt g) fun st =>
    Drawn .body (acc.add st.nodes st.words) :=
  .bind .expectKeyword fun _ => .bind (clauses_takes (commClause_takes keeps)) fun _ => .done rfl

def LoopHeader.words : LoopHeader → List Word
  | .range c => c.words
  | .loop init cond post => Stmt.wordsOpt init ++ Expr.wordsOpt cond ++ Stmt.wordsOpt post

def LoopHeader.nodes : LoopHeader → List Node
  | .range c => c.nodes
  | .loop init cond post =>
    Stmt.nodesOpt init ++ Stmt.nodesOpt (cond.map .expr) ++ Stmt.nodesOpt post

attribute [local simp] LoopHeader.words LoopHeader.nodes

omit keeps in
theorem loopCond_takes {st : Stmt} : Takes (Drawn s (acc.add st.nodes st.words)) K (loopCond st)
    fun e => Drawn s (acc.add (Stmt.expr e).nodes e.words) := by
  unfold loopCond
  split
  · exact .done (by simp)
  · exact .unexpected

theorem loopRest_takes {init : Option Stmt} :
    Takes (Drawn .body (acc.add (Stmt.nodesOpt init) (Stmt.wordsOpt init))) K (loopRest g init)
      fun h => Drawn .body (acc.add h.nodes h.words) := by
  refine .looksAt_bind fun b => ?_
  extract_lets withCond
  have withCond_takes : ∀ cond : Option Expr,
      Takes (Drawn .body (acc.add (Stmt.nodesOpt init) (Stmt.wordsOpt init)
          |>.add (Stmt.nodesOpt (cond.map .expr)) (Expr.wordsOpt cond)))
        anyKind (withCond cond) fun h => Drawn .body (acc.add h.nodes h.words) := by
    intro cond
    refine .bind .expectMark fun _ => .looksAt_bind fun b => ?_
    extract_lets withPost
    have withPost_takes : ∀ post : Option Stmt,
        Takes (Drawn .body (acc.add (Stmt.nodesOpt init) (Stmt.wordsOpt init)
            |>.add (Stmt.nodesOpt (cond.map .expr)) (Expr.wordsOpt cond)
            |>.add (Stmt.nodesOpt post) (Stmt.wordsOpt post)))
          anyKind (withPost post) fun h => Drawn .body (acc.add h.nodes h.words) :=
      fun post => .done (by simp)
    split
    · exact .bind (.done (by simp)) withPost_takes
    · exact .bind (.map (simpleStmt_takes keeps)) withPost_takes
  split
  · exact .bind (.done (by simp)) withCond_takes
  · refine .bind (.map ?_) withCond_takes
    exact .bind (simpleStmt_takes keeps) fun st => loopCond_takes

theorem loopHeader_takes : Takes (Drawn .body acc) K (loopHeader g) fun h =>
    Drawn .body (acc.add h.nodes h.words) := by
  refine .peek_bind fun k _ => ?_
  split
  · exact .done (by simp)
  · exact .bind (.stepAt rfl) fun _ => .cast (by simp) (loopRest_takes keeps)
  · refine .bind (simple_takes keeps) fun first => ?_
    cases first with
    | range c => exact .done rfl
    | stmt first =>
      refine .bind .acceptMark fun o => ?_
      cases o with
      | some _ => exact loopRest_takes keeps
      | none => exact .bind loopCond_takes fun e => .done (by simp)

theorem forStmt_takes : Takes (Drawn .body acc) K (forStmt g) fun st =>
    Drawn .body (acc.add st.nodes st.words) := by
  refine .bind .expectKeyword fun forPos => ?_
  refine .bind (.enclosed (loopHeader_takes keeps)) fun header => ?_
  refine .bind keeps.block fun body => ?_
  cases header with
  | range c =>
    obtain ⟨key, value, op, rangePos, operand⟩ := c
    cases value with
    | none => exact .done (by simp)
    | some value => exact .roomier (.one value.stop) (fun _ => trivial) (by simp) (by simp; grind)
  | loop init cond post =>
    cases cond with
    | none => exact .done (by simp)
    | some cond => exact .roomier (.one cond.stop) (fun _ => trivial) (by simp) (by simp; grind)

/-! ### Statements -/

theorem returnStmt_takes (silent : ∀ k, K k → isSilent k) :
    Takes (Drawn .body acc) K (returnStmt g) fun st => Drawn .body (acc.add st.nodes st.words) := by
  refine .bind (.stepSilent silent) fun returnPos => .peek_bind fun k _ => ?_
  split
  · exact .done (by simp)
  · exact .done (by simp)
  · exact .bind keeps.exprList fun results => .done rfl

omit keeps in
theorem branchStmt_takes {kind : BranchKind} (silent : ∀ k, K k → isSilent k) :
    Takes (Drawn s acc) K (branchStmt kind) fun st => Drawn s (acc.add st.nodes st.words) := by
  refine .bind (.stepSilent silent) fun kwPos => .peek_bind fun k _ => ?_
  split
  · exact .done (by simp)
  · exact .bind .ident fun label => .done rfl
  · exact .done (by simp)

omit keeps in
theorem ended_takes {I : List Token → Prop} {r : Reader Stmt}
    (h : Takes I K r fun st => Drawn s (acc.add st.nodes st.words)) :
    Takes I K (ended r) fun st => Drawn s (acc.add st.nodes st.words) :=
  .bind h fun _ => .bind .terminator fun _ => .done rfl

theorem plainStmt_takes : Takes (Drawn .body acc) K (plainStmt g) fun st =>
    Drawn .body (acc.add st.nodes st.words) := by
  refine .bind (simple_takes keeps) fun st => ?_
  split
  · exact .done rfl
  · exact ended_takes (.done rfl)
  · exact .unexpected

theorem stmtRule_takes : Takes (Drawn .body acc) K (stmtRule g) fun st =>
    Drawn .body (acc.add st.nodes st.words) := by
  refine .peek_bind fun k _ => ?_
  split
  · exact .bind (genDecl_takes keeps (isSilent_of_eq rfl)) fun d => .done rfl
  · exact .bind (genDecl_takes keeps (isSilent_of_eq rfl)) fun d => .done rfl
  · exact .bind (genDecl_takes keeps (isSilent_of_eq rfl)) fun d => .done rfl
  · exact ended_takes (.bind (.stepAt rfl) fun goPos => .bind keeps.expr fun call => .done rfl)
  · exact ended_takes (.bind (.stepAt rfl) fun deferPos => .bind keeps.expr fun call => .done rfl)
  · exact ended_takes (returnStmt_takes keeps (isSilent_of_eq rfl))
  · exact ended_takes (branchStmt_takes (isSilent_of_eq rfl))
  · exact ended_takes (branchStmt_takes (isSilent_of_eq rfl))
  · exact ended_takes (branchStmt_takes (isSilent_of_eq rfl))
  · exact ended_takes (branchStmt_takes (isSilent_of_eq rfl))
  · exact ended_takes (.bind keeps.block fun b => .done rfl)
  · exact ended_takes keeps.ifStmt
  · exact ended_takes (switchStmt_takes keeps)
  · exact ended_takes (selectStmt_takes keeps)
  · exact ended_takes (forStmt_takes keeps)
  · exact plainStmt_takes keeps

end Rules

end Grammar

end GoLayout
