import GoLayout.Grammar.Type

/-!
The rules for expressions. A type in the place of an operand is read as an expression first, and
taken as a type when the braces of a literal follow.
-/

namespace GoLayout

/-- The type without its type arguments, if it is a name. -/
def TypeExpr.baseName? : TypeExpr → Option (Option Qualifier × Ident)
  | .named qualifier name => some (qualifier, name)
  | .generic qualifier name _ _ _ => some (qualifier, name)
  | _ => none

mutual

/-- An expression taken as a type. -/
def Expr.toType? : Expr → Option TypeExpr
  | .type t => some t
  | .ident name => some (.named none name)
  | .selector (.ident package) dot member => some (.named (some ⟨package, dot⟩) member)
  | .index operand lbrack indices rbrack => do
    let (qualifier, name) ← (← operand.toType?).baseName?
    return .generic qualifier name lbrack (← Expr.toTypes? indices) rbrack
  | .paren lparen inner rparen => do return .paren lparen (← inner.toType?) rparen
  | .unary .deref star operand => do return .pointer star (← operand.toType?)
  | _ => none

def Expr.toTypes? : List Expr → Option (List TypeExpr)
  | [] => some []
  | e :: es => do return (← e.toType?) :: (← Expr.toTypes? es)

end

/-- Whether the type of a literal can be spelled so on the given level. A name may be the last
operand of a header. -/
def Expr.namesLiteral (level : Grammar.Level) : Expr → Bool
  | .paren _ inner _ => inner.namesLiteral level
  | .ident _ | .selector _ _ _ | .index _ _ _ _ => 0 ≤ level
  | .type (.array _ _ _ _) | .type (.countedArray _ _ _ _) | .type (.slice _ _ _) => true
  | .type (.struct _ _) | .type (.map _ _ _ _ _) => true
  | _ => false

namespace Grammar

variable (g : Readers)

/-! ### Operands -/

/-- A function literal, or a function type in the place of an operand. -/
def funcOperand : Reader Expr := do
  let funcPos ← step
  let sig ← signature g
  if ← looksAt (.mark .lbrace) then return .func funcPos sig (← enclosed .brackets g.body)
  else return .type (.func (some funcPos) sig)

def operand : Reader Expr := do
  match ← peek with
  | .name _ => return .ident (← ident)
  | .literal kind text => return .literal ⟨kind, text, ← step⟩
  | .mark .lparen =>
    let lparen ← step
    let inner ← enclosed .brackets g.expr
    return .paren lparen inner (← expectMark .rparen)
  | .keyword .kwFunc => funcOperand g
  | .mark .lbrack | .keyword .kwStruct | .keyword .kwMap | .keyword .kwChan
  | .keyword .kwInterface => return .type (← g.type)
  | _ => unexpected .expression

/-! ### Suffixes -/

/-- A selector or a type assertion on `x`. -/
def dotSuffix (x : Expr) : Reader Expr := do
  let dot ← expectMark .dot
  match ← peek with
  | .name _ => return .selector x dot (← ident)
  | .mark .lparen =>
    let lparen ← step
    let type ← match ← accept (.keyword .kwType) with
      | some _ => pure none
      | none => some <$> g.type
    return .assertion x dot lparen type (← expectMark .rparen)
  | _ => unexpected .selector

/-- An index behind a comma; a comma may also precede the bracket. -/
def nextIndex? : Reader (Option Expr) := do
  match ← acceptMark .comma with
  | some _ => if ← looksAt (.mark .rbrack) then return none else return some (← g.expr)
  | none => return none

/-- One bound of a slice, if it is not left out. -/
def sliceBound : Reader (Option Expr) := do
  match ← peek with
  | .mark .colon | .mark .rbrack => return none
  | _ => return some (← g.expr)

/-- The bounds of a slice behind its first one, and whether there are two colons. -/
def sliceBounds : Reader (Option Expr × Option Expr × Bool) := do
  match ← acceptMark .colon with
  | none => return (none, none, false)
  | some _ =>
    let hi ← sliceBound g
    match ← acceptMark .colon with
    | none => return (hi, none, false)
    | some _ => return (hi, ← sliceBound g, true)

/-- Indices, type arguments or the bounds of a slice on `x`. -/
def bracketSuffix (x : Expr) : Reader Expr := do
  let lbrack ← expectMark .lbrack
  enclosed .brackets do
    let first ← if ← looksAt (.mark .colon) then pure none else some <$> g.expr
    let kind ← peek
    match first with
    | some first =>
      if kind == .mark .comma || kind == .mark .rbrack then
        let more ← many (nextIndex? g) g.rounds
        return .index x lbrack (first :: more) (← expectMark .rbrack)
      else
        let (hi, max, full) ← sliceBounds g
        return .slice x lbrack (some first) hi max full (← expectMark .rbrack)
    | none =>
      let (hi, max, full) ← sliceBounds g
      return .slice x lbrack none hi max full (← expectMark .rbrack)

/-- An argument, and the dots that spread it. -/
def argument : Reader (Expr × Option Span) := do
  let arg ← g.expr
  return (arg, ← acceptMark .ellipsis)

/-- The arguments of a call of `x`. Of several spreads the last one counts. -/
def callSuffix (x : Expr) : Reader Expr := do
  let lparen ← expectMark .lparen
  let args ← enclosed .brackets (commaList .rparen (argument g) g.rounds)
  let rparen ← expectMark .rparen
  return .call x lparen (args.map (·.1)) (args.filterMap (·.2)).getLast? rparen

/-- The suffix behind `x`, if there is one. -/
def suffix? (x : Expr) : Reader (Option Expr) := do
  match ← peek with
  | .mark .dot => return some (← dotSuffix g x)
  | .mark .lbrack => return some (← bracketSuffix g x)
  | .mark .lparen => return some (← callSuffix g x)
  | .mark .lbrace =>
    if x.namesLiteral (← level) then
      match x.toType? with
      | some type =>
        let ⟨lbrace, list, rbrace⟩ ← g.read .elements
        return some (.composite (some type) lbrace list rbrace)
      | none => return none
    else return none
  | _ => return none

def suffixes (x : Expr) : Reader Expr := grow (suffix? g) g.rounds x

/-! ### Operators and literals -/

/-- The rule for operands with their unary operators. -/
def unaryRule : Reader Expr := do
  match ← peek, ← peekNext with
  | .mark .arrow, .keyword .kwChan => suffixes g (.type (← g.type))
  | .mark m, _ =>
    match UnaryOp.ofMark? m with
    | some op =>
      let opPos ← step
      return .unary op opPos (← g.read .unary)
    | none => suffixes g (← operand g)
  | _, _ => suffixes g (← operand g)

/-- A further operand on the right of `left`, behind an operator that binds at least as tight as
`min`. -/
def nextOperand? (min : Nat) (left : Expr) : Reader (Option Expr) := do
  match ← peek with
  | .mark m =>
    match BinaryOp.ofMark? m with
    | some op =>
      if op.precedence < min then return none
      let opPos ← step
      return some (.binary left op opPos (← g.read (.binary (op.precedence + 1))))
    | none => return none
  | _ => return none

/-- The rule for expressions: operators of one precedence group to the left. -/
def binaryRule (min : Nat) : Reader Expr := do
  grow (nextOperand? g min) g.rounds (← g.read .unary)

/-- A key, a value or an element without key; inside a literal, braces alone are one too. -/
def elementValue : Reader Expr := do
  if ← looksAt (.mark .lbrace) then
    let ⟨lbrace, list, rbrace⟩ ← g.read .elements
    return .composite none lbrace list rbrace
  else g.expr

def element : Reader Expr := do
  let key ← elementValue g
  match ← acceptMark .colon with
  | some colon => return .keyValue key colon (← elementValue g)
  | none => return key

/-- The rule for the elements of a literal. -/
def elementsRule : Reader Elements := do
  let lbrace ← expectMark .lbrace
  let list ← enclosed .brackets (commaList .rbrace (element g) g.rounds)
  return ⟨lbrace, list, ← expectMark .rbrace⟩

end Grammar

end GoLayout
