import GoLayout.Grammar.Phrase

/-!
The rules for types, signatures and their fields.
-/

namespace GoLayout.Grammar

/-- An entry of a parameter list. A lone name is a parameter or a type, which only the other
entries tell. -/
inductive Param where
  | lone (name : Ident)
  | typed (name : Option Ident) (type : TypeExpr)

namespace Param

/-- A field without comments and tag. -/
def field (names : List Ident) (type : TypeExpr) : Field := ⟨none, names, type, none, none⟩

/-- The type of an entry in a list without named parameters. -/
def type : Param → TypeExpr
  | .lone name => .named none name
  | .typed _ type => type

/-- The fields of a list with named parameters; lone names share the type of the next entry. -/
def namedFields (lparen : Span) : (pending : List Ident) → List Param → Reader (List Field)
  | [], [] => return []
  | _ :: _, [] => failAt lparen .missingParameterType
  | pending, .lone name :: rest => namedFields lparen (pending ++ [name]) rest
  | pending, .typed (some name) type :: rest =>
    return field (pending ++ [name]) type :: (← namedFields lparen [] rest)
  | _, .typed none _ :: _ => failAt lparen .mixedParameters

def isNamed : Param → Bool
  | .typed (some _) _ => true
  | _ => false

/-- The fields of a list that opens at `lparen`. -/
def fields (lparen : Span) (entries : List Param) : Reader (List Field) :=
  if entries.any isNamed then namedFields lparen [] entries
  else return entries.map fun entry => field [] entry.type

end Param

/-- Whether a type follows the bracket that closes the first one opened in these tokens; `depth`
brackets are open before them. -/
def typeAfterBrackets : (depth : Nat) → List Attached → Bool
  | _, [] => false
  | depth, t :: ts =>
    match t.kind with
    | .mark .lbrack | .mark .lparen | .mark .lbrace => typeAfterBrackets (depth + 1) ts
    | .mark .rbrack | .mark .rparen | .mark .rbrace =>
      if depth ≤ 1 then ts.head?.any (·.kind.startsType) else typeAfterBrackets (depth - 1) ts
    | _ => typeAfterBrackets depth ts

/-- On a name with a bracket behind it: whether they are a name and an array or slice type, and
not a type with arguments. -/
def arrayFollows : Reader Bool := return typeAfterBrackets 0 (← get).rest

variable (g : Readers)

/-- A term of a union. -/
def constraintTerm : Reader TypeExpr := do
  match ← acceptMark .tilde with
  | some tildePos => return .tilde tildePos (← g.type)
  | none => g.type

/-- The constraint of a type parameter, or an interface element: a type or a union. -/
def constraint : Reader TypeExpr := do
  match ← sepBy .pipe (constraintTerm g) g.rounds with
  | [type] => return type
  | terms => return .union terms

/-- The type of a parameter, or the constraint of a type parameter. -/
def paramType (typeParams : Bool) : Reader TypeExpr := do
  if typeParams then constraint g
  else match ← acceptMark .ellipsis with
    | some dots => return .variadic dots (← g.type)
    | none => g.type

def param (closer : Mark) (typeParams : Bool) : Reader Param := do
  match ← peek with
  | .name _ =>
    let next ← peekNext
    if next == .mark .comma || next == .mark closer then return .lone (← ident)
    else if !typeParams && next == .mark .dot then return .typed none (← g.type)
    else if !typeParams && next == .mark .lbrack && !(← arrayFollows) then
      return .typed none (← g.type)
    else
      let name ← ident
      return .typed (some name) (← paramType g typeParams)
  | _ => return .typed none (← paramType g typeParams)

/-- A list of parameters, results or type parameters with its brackets. -/
def params (opener closer : Mark) (typeParams : Bool) : Reader FieldList := do
  let left ← expect (.mark opener) .listOpener
  let entries ← enclosed .brackets (commaList closer (param g closer typeParams) g.rounds)
  let right ← expect (.mark closer) .listCloser
  return ⟨some ⟨left, right⟩, ← Param.fields left entries⟩

def valueParams : Reader FieldList := params g .lparen .rparen false

def typeParams : Reader FieldList := params g .lbrack .rbrack true

def signature : Reader Signature := do
  let ps ← valueParams g
  let kind ← peek
  if kind == .mark .lparen then return ⟨ps, some (← valueParams g)⟩
  else if kind.startsType then return ⟨ps, some ⟨none, [Param.field [] (← g.type)]⟩⟩
  else return ⟨ps, none⟩

/-- Whether the member of a struct at the cursor is an embedded type. -/
def isEmbedded : Reader Bool := do
  match ← peek, ← peekNext with
  | .mark .star, _ => return true
  | .name _, .mark .dot | .name _, .mark .semi | .name _, .mark .rbrace => return true
  | .name _, .literal .string _ => return true
  | .name _, .mark .lbrack => return !(← arrayFollows)
  | .name _, _ => return false
  | _, _ => unexpected .member

def structField : Reader Field := do
  let doc ← lead
  let names ← if ← isEmbedded then pure [] else g.identList
  let type ← g.type
  let tag ← match ← peek with
    | .literal .string _ => literal?
    | _ => pure none
  terminator
  return ⟨doc, names, type, tag, ← trail⟩

def structType : Reader TypeExpr := do
  let structPos ← expectKeyword .kwStruct
  let left ← expectMark .lbrace
  let fields ← upTo .rbrace (structField g) g.rounds
  let right ← expectMark .rbrace
  return .struct structPos ⟨some ⟨left, right⟩, fields⟩

/-- A method, or the types that an interface admits. -/
def interfaceElement : Reader Field := do
  let doc ← lead
  let (names, type) ← match ← peek, ← peekNext with
    | .name _, .mark .lparen => do
      let name ← ident
      pure ([name], TypeExpr.func none (← signature g))
    | _, _ => pure ([], ← constraint g)
  terminator
  return ⟨doc, names, type, none, ← trail⟩

def interfaceType : Reader TypeExpr := do
  let interfacePos ← expectKeyword .kwInterface
  let left ← expectMark .lbrace
  let elements ← upTo .rbrace (interfaceElement g) g.rounds
  let right ← expectMark .rbrace
  return .interface interfacePos ⟨some ⟨left, right⟩, elements⟩

def typeName : Reader TypeExpr := do
  let first ← ident
  let (qualifier, name) ← match ← acceptMark .dot with
    | some dot => do
      let name ← ident
      pure (some ⟨first, dot⟩, name)
    | none => pure (none, first)
  if ← looksAt (.mark .lbrack) then
    let lbrack ← expectMark .lbrack
    let args ← enclosed .brackets (commaList .rbrack g.type g.rounds)
    return .generic qualifier name lbrack args (← expectMark .rbrack)
  else return .named qualifier name

/-- A slice or array type. -/
def bracketType : Reader TypeExpr := do
  let lbrack ← expectMark .lbrack
  match ← acceptMark .rbrack with
  | some rbrack => return .slice lbrack rbrack (← g.type)
  | none =>
    match ← acceptMark .ellipsis with
    | some dots =>
      let rbrack ← expectMark .rbrack
      return .countedArray lbrack dots rbrack (← g.type)
    | none =>
      let len ← enclosed .brackets g.expr
      let rbrack ← expectMark .rbrack
      return .array lbrack len rbrack (← g.type)

def mapType : Reader TypeExpr := do
  let mapPos ← expectKeyword .kwMap
  let lbrack ← expectMark .lbrack
  let key ← g.type
  let rbrack ← expectMark .rbrack
  return .map mapPos lbrack key rbrack (← g.type)

def chanType : Reader TypeExpr := do
  let chanPos ← expectKeyword .kwChan
  let dir ← match ← acceptMark .arrow with
    | some arrow => pure (ChanDir.send arrow)
    | none => pure .both
  return .chan dir chanPos (← g.type)

/-- The rule for types. -/
def typeRule : Reader TypeExpr := do
  match ← peek with
  | .name _ => typeName g
  | .mark .lbrack => bracketType g
  | .mark .star =>
    let star ← step
    return .pointer star (← g.type)
  | .mark .lparen =>
    let lparen ← step
    let inner ← g.type
    return .paren lparen inner (← expectMark .rparen)
  | .keyword .kwFunc =>
    let funcPos ← step
    return .func (some funcPos) (← signature g)
  | .keyword .kwMap => mapType g
  | .keyword .kwChan => chanType g
  | .mark .arrow =>
    let arrow ← step
    let chanPos ← expectKeyword .kwChan
    return .chan (.recv arrow) chanPos (← g.type)
  | .keyword .kwStruct => structType g
  | .keyword .kwInterface => interfaceType g
  | _ => unexpected .type

end GoLayout.Grammar
