import GoLayout.Grammar.Expr

/-!
The rules for declarations and statements. Only the first of several expressions is kept where a
statement has room for one.
-/

namespace GoLayout.Grammar

variable (g : Readers)

/-! ### Declarations -/

def importSpec (doc : Link) : Reader Spec := do
  let name ← match ← peek with
    | .mark .dot => do pure (some (ImportName.dot (← step)))
    | .name _ => do pure (some (.name (← ident)))
    | _ => pure none
  let path ← stringLiteral
  terminator
  return .importSpec ⟨doc, name, path, ← trail⟩

def valueSpec (doc : Link) : Reader Spec := do
  let names ← g.identList
  let type ← match ← peek with
    | .mark .assign | .mark .semi | .mark .rparen | .eof => pure none
    | _ => some <$> g.type
  let assign ← acceptMark .assign
  let values ← if assign.isSome then g.exprList else pure []
  terminator
  return .valueSpec doc names type assign values (← trail)

/-- On a bracket behind the name of a type: whether it opens type parameters, and not the length
of an array. -/
def opensTypeParams : Reader Bool := do
  let next := (← get).next
  match next.current.kind, next.next.current.kind with
  | .name _, .name _ => return true
  | .name _, .mark m => return (m matches .comma | .tilde | .star | .lbrack | .lparen)
  | .name _, .keyword k => return (k matches .kwInterface | .kwFunc | .kwMap | .kwChan | .kwStruct)
  | _, _ => return false

def typeSpec (doc : Link) : Reader Spec := do
  let name ← ident
  let params ← if (← looksAt (.mark .lbrack)) && (← opensTypeParams) then
      some <$> typeParams g
    else pure none
  let assign ← acceptMark .assign
  let type ← g.type
  terminator
  return .typeSpec doc name params assign type (← trail)

def spec (kind : DeclKind) (doc : Link) : Reader Spec :=
  match kind with
  | .imports => importSpec doc
  | .consts | .vars => valueSpec g doc
  | .types => typeSpec g doc

/-- A declaration at its keyword. Only in a group have specs a doc comment of their own. -/
def genDecl (kind : DeclKind) : Reader GenDecl := do
  let doc ← lead
  let kwPos ← step
  match ← acceptMark .lparen with
  | some lparen =>
    let specs ← upTo .rparen (do spec g kind (← lead)) g.rounds
    let rparen ← expectMark .rparen
    terminator
    return ⟨doc, kwPos, kind, some lparen, specs, some rparen⟩
  | none => return ⟨doc, kwPos, kind, none, [← spec g kind none], none⟩

/-! ### Simple statements -/

/-- The header of a loop over a range. -/
structure RangeClause where
  key : Option Expr
  value : Option Expr
  op : Option (AssignOp × Span)
  rangePos : Span
  operand : Expr

/-- A simple statement, or the header of a loop over a range. -/
inductive Simple where
  | stmt (s : Stmt)
  | range (clause : RangeClause)

/-- The rest of a range header, at its keyword. -/
def rangeClause (key value : Option Expr) (op : Option (AssignOp × Span)) : Reader Simple := do
  let rangePos ← step
  return .range ⟨key, value, op, rangePos, ← g.expr⟩

/-- The rest of an assignment to `lhs`, at its operator. -/
def assignment (rangeOk : Bool) (lhs : List Expr) (op : AssignOp) : Reader Simple := do
  let opPos ← step
  if rangeOk && (← looksAt (.keyword .kwRange)) && (op == .assign || op == .define) then
    rangeClause g lhs[0]? lhs[1]? (some (op, opPos))
  else return .stmt (.assign lhs op opPos (← g.exprList))

/-- The statement behind a label. -/
def labeled (label : Ident) : Reader Simple := do
  let colon ← step
  match ← peek with
  | .mark .rbrace => return .stmt (.labeled label colon (.empty (.point (← here).start)))
  | _ => return .stmt (.labeled label colon (← g.read .stmt))

/-- What becomes of the expressions `first :: rest`, by the token behind them. -/
def simpleRest (labelOk rangeOk : Bool) (first : Expr) (rest : List Expr) : Reader Simple := do
  match ← peek with
  | .mark .colon =>
    if !labelOk then return .stmt (.expr first)
    match first with
    | .ident label => labeled g label
    | _ => unexpected .statement
  | .mark .arrow =>
    let arrow ← step
    return .stmt (.send first arrow (← g.expr))
  | .mark .inc => return .stmt (.incDec first .inc (← step))
  | .mark .dec => return .stmt (.incDec first .dec (← step))
  | .mark m =>
    match AssignOp.ofMark? m with
    | some op => assignment g rangeOk (first :: rest) op
    | none => return .stmt (.expr first)
  | _ => return .stmt (.expr first)

/-- A simple statement; where it is allowed, a labeled statement or a range header too. -/
def simple (labelOk rangeOk : Bool) : Reader Simple := do
  if rangeOk && (← looksAt (.keyword .kwRange)) then rangeClause g none none none
  else
    let first ← g.expr
    let rest ← match ← acceptMark .comma with
      | some _ => g.exprList
      | none => pure []
    simpleRest g labelOk rangeOk first rest

/-- A simple statement where nothing else is allowed. -/
def simpleStmt : Reader Stmt := do
  match ← simple g false false with
  | .stmt s => return s
  | .range _ => unexpected .statement

/-! ### Control statements -/

/-- The initial statement and the condition of an `if`. -/
def ifHeader : Reader (Option Stmt × Expr) := do
  if ← looksAt (.mark .lbrace) then unexpected .condition
  let first ← if ← looksAt (.mark .semi) then pure none else some <$> simpleStmt g
  let (init, cond) ← match ← acceptMark .semi with
    | some _ => do pure (first, some (← simpleStmt g))
    | none => pure (none, first)
  match cond with
  | some (.expr cond) => return (init, cond)
  | _ => unexpected .boolean

/-- What follows `else`. -/
def elseBranch : Reader Stmt := do
  match ← peek with
  | .keyword .kwIf => g.read .ifStmt
  | .mark .lbrace => return .block (← g.block)
  | _ => unexpected .elseBranch

/-- The rule for `if`, without the end of the statement. -/
def ifRule : Reader Stmt := do
  let ifPos ← expectKeyword .kwIf
  let (init, cond) ← enclosed .header (ifHeader g)
  let body ← g.block
  let orElse ← match ← accept (.keyword .kwElse) with
    | some _ => some <$> elseBranch g
    | none => pure none
  return .ifElse ifPos init cond body orElse

/-- The initial statement and the tag of a `switch`, either of which may be left out. -/
def switchHeader : Reader (Option Stmt × Option Stmt) := do
  if ← looksAt (.mark .lbrace) then return (none, none)
  let first ← if ← looksAt (.mark .semi) then pure none else some <$> simpleStmt g
  match ← acceptMark .semi with
  | none => return (none, first)
  | some _ =>
    if ← looksAt (.mark .lbrace) then return (first, none)
    else return (first, some (← simpleStmt g))

/-- Whether an expression asks for the type of its operand. -/
def isTypeGuard : Expr → Bool
  | .assertion _ _ _ none _ => true
  | _ => false

/-- Whether a statement is the guard of a type switch. -/
def isTypeSwitchGuard : Stmt → Bool
  | .expr e => isTypeGuard e
  | .assign _ .define _ [e] => isTypeGuard e
  | _ => false

/-- The keyword that opens a clause, and whether it is `case`. -/
def clauseKeyword : Reader (Span × Bool) := do
  match ← accept (.keyword .kwCase) with
  | some span => return (span, true)
  | none => return (← expect (.keyword .kwDefault) .clause, false)

def caseClause : Reader Stmt := do
  let (casePos, isCase) ← clauseKeyword
  let values ← if isCase then g.exprList else pure []
  let colon ← expectMark .colon
  return .caseClause casePos values colon (← g.stmtList)

def commClause : Reader Stmt := do
  let (casePos, isCase) ← clauseKeyword
  let comm ← if isCase then some <$> simpleStmt g else pure none
  let colon ← expectMark .colon
  return .commClause casePos comm colon (← g.stmtList)

/-- Clauses in braces. -/
def clauses (clause : Reader Stmt) : Reader Block := do
  let lbrace ← expectMark .lbrace
  let list ← many clause? g.rounds
  return ⟨lbrace, list, ← expectMark .rbrace⟩
where
  clause? : Reader (Option Stmt) := do
    match ← peek with
    | .keyword .kwCase | .keyword .kwDefault => return some (← clause)
    | _ => return none

def switchStmt : Reader Stmt := do
  let switchPos ← expectKeyword .kwSwitch
  let (init, tag) ← enclosed .header (switchHeader g)
  let body ← clauses g (caseClause g)
  match tag with
  | none => return .switch switchPos init none body
  | some tag =>
    if isTypeSwitchGuard tag then return .typeSwitch switchPos init tag body
    else match tag with
      | .expr e => return .switch switchPos init (some e) body
      | _ => failAt switchPos .switchOperand

def selectStmt : Reader Stmt := do
  let selectPos ← expectKeyword .kwSelect
  return .select selectPos (← clauses g (commClause g))

/-- The header of a loop. -/
inductive LoopHeader where
  | range (clause : RangeClause)
  | loop (init : Option Stmt) (cond : Option Expr) (post : Option Stmt)

/-- The condition of a loop, which has to be an expression. -/
def loopCond : Stmt → Reader Expr
  | .expr e => return e
  | _ => unexpected .loopCondition

/-- The condition and the last statement of a loop header, behind its first semicolon. -/
def loopRest (init : Option Stmt) : Reader LoopHeader := do
  let cond ← if ← looksAt (.mark .semi) then pure none
    else some <$> (do loopCond (← simpleStmt g))
  let _ ← expectMark .semi
  let post ← if ← looksAt (.mark .lbrace) then pure none else some <$> simpleStmt g
  return .loop init cond post

def loopHeader : Reader LoopHeader := do
  match ← peek with
  | .mark .lbrace => return .loop none none none
  | .mark .semi =>
    let _ ← step
    loopRest g none
  | _ =>
    match ← simple g false true with
    | .range clause => return .range clause
    | .stmt first =>
      match ← acceptMark .semi with
      | some _ => loopRest g (some first)
      | none => return .loop none (some (← loopCond first)) none

def forStmt : Reader Stmt := do
  let forPos ← expectKeyword .kwFor
  let header ← enclosed .header (loopHeader g)
  let body ← g.block
  match header with
  | .range c => return .range forPos c.key c.value c.op c.rangePos c.operand body
  | .loop init cond post => return .forLoop forPos init cond post body

/-! ### Statements -/

def returnStmt : Reader Stmt := do
  let returnPos ← step
  match ← peek with
  | .mark .semi | .mark .rbrace => return .returns returnPos []
  | _ => return .returns returnPos (← g.exprList)

def branchStmt (kind : BranchKind) : Reader Stmt := do
  let kwPos ← step
  match kind, ← peek with
  | .fallthrough, _ => return .branch kind kwPos none
  | _, .name _ => return .branch kind kwPos (some (← ident))
  | _, _ => return .branch kind kwPos none

/-- A statement with its end. -/
def ended (r : Reader Stmt) : Reader Stmt := do
  let s ← r
  terminator
  return s

/-- A statement that begins with no keyword. The end of a labeled statement is that of the
statement behind the label. -/
def plainStmt : Reader Stmt := do
  match ← simple g true false with
  | .stmt (.labeled label colon s) => return .labeled label colon s
  | .stmt s => ended (pure s)
  | .range _ => unexpected .statement

/-- The rule for statements. -/
def stmtRule : Reader Stmt := do
  match ← peek with
  | .keyword .kwConst => return .decl (← genDecl g .consts)
  | .keyword .kwVar => return .decl (← genDecl g .vars)
  | .keyword .kwType => return .decl (← genDecl g .types)
  | .keyword .kwGo => ended do
    let goPos ← step
    return .go goPos (← g.expr)
  | .keyword .kwDefer => ended do
    let deferPos ← step
    return .defer deferPos (← g.expr)
  | .keyword .kwReturn => ended (returnStmt g)
  | .keyword .kwBreak => ended (branchStmt .breaks)
  | .keyword .kwContinue => ended (branchStmt .continues)
  | .keyword .kwGoto => ended (branchStmt .goto)
  | .keyword .kwFallthrough => ended (branchStmt .fallthrough)
  | .mark .lbrace => ended do return .block (← g.block)
  | .keyword .kwIf => ended (g.read .ifStmt)
  | .keyword .kwSwitch => ended (switchStmt g)
  | .keyword .kwSelect => ended (selectStmt g)
  | .keyword .kwFor => ended (forStmt g)
  | _ => plainStmt g

end GoLayout.Grammar
