import GoLayout.Tree.Basic

/-!
Traversal of a tree by a visitor. The visitor is asked about a node when it is entered, and says
what is to become of the node once its parts have been visited in source order.
-/

namespace GoLayout

/-- Whether a block is the body of a function or stands inside one. -/
inductive BlockRole where
  | body | inner
deriving DecidableEq, Repr

/-- What a visitor does at a node: something on entering, and something on leaving it with its
parts visited. -/
abbrev Visit (m : Type → Type) (α : Type) := α → m (α → m α)

/-- Nothing is done at a node. -/
def Visit.skip {m : Type → Type} [Monad m] {α : Type} : Visit m α := fun _ => pure pure

structure Visitor (m : Type → Type) where
  expr : Visit m Expr
  type : Visit m TypeExpr
  sig : Visit m Signature
  block : BlockRole → Visit m Block
  stmt : Visit m Stmt
  decl : Visit m GenDecl
  func : Visit m FuncDecl

/-- The visitor that leaves everything as it is. -/
def Visitor.idle {m : Type → Type} [Monad m] : Visitor m :=
  ⟨.skip, .skip, .skip, fun _ => .skip, .skip, .skip, .skip⟩

variable {m : Type → Type} [Monad m] (v : Visitor m)

mutual

def Expr.visit : Expr → m Expr
  | .ident name => do
    let leave ← v.expr (.ident name)
    leave (.ident name)
  | .literal lit => do
    let leave ← v.expr (.literal lit)
    leave (.literal lit)
  | .func funcPos sig body => do
    let leave ← v.expr (.func funcPos sig body)
    let sig ← sig.visit
    let body ← body.visit .body
    leave (.func funcPos sig body)
  | .composite type lbrace elements rbrace => do
    let leave ← v.expr (.composite type lbrace elements rbrace)
    let type ← TypeExpr.visitOpt type
    let elements ← Expr.visitAll elements
    leave (.composite type lbrace elements rbrace)
  | .paren lparen inner rparen => do
    let leave ← v.expr (.paren lparen inner rparen)
    leave (.paren lparen (← inner.visit) rparen)
  | .selector operand dot member => do
    let leave ← v.expr (.selector operand dot member)
    leave (.selector (← operand.visit) dot member)
  | .index operand lbrack indices rbrack => do
    let leave ← v.expr (.index operand lbrack indices rbrack)
    let operand ← operand.visit
    let indices ← Expr.visitAll indices
    leave (.index operand lbrack indices rbrack)
  | .slice operand lbrack lo hi max full rbrack => do
    let leave ← v.expr (.slice operand lbrack lo hi max full rbrack)
    let operand ← operand.visit
    let lo ← Expr.visitOpt lo
    let hi ← Expr.visitOpt hi
    let max ← Expr.visitOpt max
    leave (.slice operand lbrack lo hi max full rbrack)
  | .assertion operand dot lparen type rparen => do
    let leave ← v.expr (.assertion operand dot lparen type rparen)
    let operand ← operand.visit
    let type ← TypeExpr.visitOpt type
    leave (.assertion operand dot lparen type rparen)
  | .call fn lparen args spread rparen => do
    let leave ← v.expr (.call fn lparen args spread rparen)
    let fn ← fn.visit
    let args ← Expr.visitAll args
    leave (.call fn lparen args spread rparen)
  | .unary op opPos operand => do
    let leave ← v.expr (.unary op opPos operand)
    leave (.unary op opPos (← operand.visit))
  | .binary left op opPos right => do
    let leave ← v.expr (.binary left op opPos right)
    let left ← left.visit
    let right ← right.visit
    leave (.binary left op opPos right)
  | .keyValue key colon value => do
    let leave ← v.expr (.keyValue key colon value)
    let key ← key.visit
    let value ← value.visit
    leave (.keyValue key colon value)
  | .type t => do
    let leave ← v.expr (.type t)
    leave (.type (← t.visit))

def Expr.visitOpt : Option Expr → m (Option Expr)
  | none => pure none
  | some e => return some (← e.visit)

def Expr.visitAll : List Expr → m (List Expr)
  | [] => pure []
  | e :: es => return (← e.visit) :: (← Expr.visitAll es)

def TypeExpr.visit : TypeExpr → m TypeExpr
  | .named qualifier name => do
    let leave ← v.type (.named qualifier name)
    leave (.named qualifier name)
  | .generic qualifier name lbrack args rbrack => do
    let leave ← v.type (.generic qualifier name lbrack args rbrack)
    leave (.generic qualifier name lbrack (← TypeExpr.visitAll args) rbrack)
  | .pointer star elem => do
    let leave ← v.type (.pointer star elem)
    leave (.pointer star (← elem.visit))
  | .array lbrack len rbrack elem => do
    let leave ← v.type (.array lbrack len rbrack elem)
    let len ← len.visit
    let elem ← elem.visit
    leave (.array lbrack len rbrack elem)
  | .countedArray lbrack dots rbrack elem => do
    let leave ← v.type (.countedArray lbrack dots rbrack elem)
    leave (.countedArray lbrack dots rbrack (← elem.visit))
  | .slice lbrack rbrack elem => do
    let leave ← v.type (.slice lbrack rbrack elem)
    leave (.slice lbrack rbrack (← elem.visit))
  | .map mapPos lbrack key rbrack value => do
    let leave ← v.type (.map mapPos lbrack key rbrack value)
    let key ← key.visit
    let value ← value.visit
    leave (.map mapPos lbrack key rbrack value)
  | .chan dir chanPos elem => do
    let leave ← v.type (.chan dir chanPos elem)
    leave (.chan dir chanPos (← elem.visit))
  | .struct structPos fields => do
    let leave ← v.type (.struct structPos fields)
    leave (.struct structPos (← fields.visit))
  | .interface interfacePos elements => do
    let leave ← v.type (.interface interfacePos elements)
    leave (.interface interfacePos (← elements.visit))
  | .func funcPos sig => do
    let leave ← v.type (.func funcPos sig)
    leave (.func funcPos (← sig.visit))
  | .paren lparen inner rparen => do
    let leave ← v.type (.paren lparen inner rparen)
    leave (.paren lparen (← inner.visit) rparen)
  | .variadic dots elem => do
    let leave ← v.type (.variadic dots elem)
    leave (.variadic dots (← elem.visit))
  | .union terms => do
    let leave ← v.type (.union terms)
    leave (.union (← TypeExpr.visitAll terms))
  | .tilde tildePos inner => do
    let leave ← v.type (.tilde tildePos inner)
    leave (.tilde tildePos (← inner.visit))

def TypeExpr.visitOpt : Option TypeExpr → m (Option TypeExpr)
  | none => pure none
  | some t => return some (← t.visit)

def TypeExpr.visitAll : List TypeExpr → m (List TypeExpr)
  | [] => pure []
  | t :: ts => return (← t.visit) :: (← TypeExpr.visitAll ts)

def Field.visit : Field → m Field
  | ⟨doc, names, type, tag, comment⟩ => return ⟨doc, names, ← type.visit, tag, comment⟩

def Field.visitAll : List Field → m (List Field)
  | [] => pure []
  | f :: fs => return (← f.visit) :: (← Field.visitAll fs)

def FieldList.visit : FieldList → m FieldList
  | ⟨brackets, fields⟩ => return ⟨brackets, ← Field.visitAll fields⟩

def FieldList.visitOpt : Option FieldList → m (Option FieldList)
  | none => pure none
  | some fields => return some (← fields.visit)

def Signature.visit : Signature → m Signature
  | ⟨params, results⟩ => do
    let leave ← v.sig ⟨params, results⟩
    let params ← params.visit
    let results ← FieldList.visitOpt results
    leave ⟨params, results⟩

def Block.visit (role : BlockRole) : Block → m Block
  | ⟨lbrace, stmts, rbrace⟩ => do
    let leave ← v.block role ⟨lbrace, stmts, rbrace⟩
    leave ⟨lbrace, ← Stmt.visitAll stmts, rbrace⟩

def Stmt.visit : Stmt → m Stmt
  | .decl d => do
    let leave ← v.stmt (.decl d)
    leave (.decl (← d.visit))
  | .empty span => do
    let leave ← v.stmt (.empty span)
    leave (.empty span)
  | .labeled label colon stmt => do
    let leave ← v.stmt (.labeled label colon stmt)
    leave (.labeled label colon (← stmt.visit))
  | .expr e => do
    let leave ← v.stmt (.expr e)
    leave (.expr (← e.visit))
  | .send chan arrow value => do
    let leave ← v.stmt (.send chan arrow value)
    let chan ← chan.visit
    let value ← value.visit
    leave (.send chan arrow value)
  | .incDec operand op opPos => do
    let leave ← v.stmt (.incDec operand op opPos)
    leave (.incDec (← operand.visit) op opPos)
  | .assign lhs op opPos rhs => do
    let leave ← v.stmt (.assign lhs op opPos rhs)
    let lhs ← Expr.visitAll lhs
    let rhs ← Expr.visitAll rhs
    leave (.assign lhs op opPos rhs)
  | .go goPos call => do
    let leave ← v.stmt (.go goPos call)
    leave (.go goPos (← call.visit))
  | .defer deferPos call => do
    let leave ← v.stmt (.defer deferPos call)
    leave (.defer deferPos (← call.visit))
  | .returns returnPos results => do
    let leave ← v.stmt (.returns returnPos results)
    leave (.returns returnPos (← Expr.visitAll results))
  | .branch kind kwPos label => do
    let leave ← v.stmt (.branch kind kwPos label)
    leave (.branch kind kwPos label)
  | .block b => do
    let leave ← v.stmt (.block b)
    leave (.block (← b.visit .inner))
  | .ifElse ifPos init cond body orElse => do
    let leave ← v.stmt (.ifElse ifPos init cond body orElse)
    let init ← Stmt.visitOpt init
    let cond ← cond.visit
    let body ← body.visit .inner
    let orElse ← Stmt.visitOpt orElse
    leave (.ifElse ifPos init cond body orElse)
  | .caseClause casePos values colon body => do
    let leave ← v.stmt (.caseClause casePos values colon body)
    let values ← Expr.visitAll values
    let body ← Stmt.visitAll body
    leave (.caseClause casePos values colon body)
  | .switch switchPos init tag body => do
    let leave ← v.stmt (.switch switchPos init tag body)
    let init ← Stmt.visitOpt init
    let tag ← Expr.visitOpt tag
    let body ← body.visit .inner
    leave (.switch switchPos init tag body)
  | .typeSwitch switchPos init guarded body => do
    let leave ← v.stmt (.typeSwitch switchPos init guarded body)
    let init ← Stmt.visitOpt init
    let guarded ← guarded.visit
    let body ← body.visit .inner
    leave (.typeSwitch switchPos init guarded body)
  | .commClause casePos comm colon body => do
    let leave ← v.stmt (.commClause casePos comm colon body)
    let comm ← Stmt.visitOpt comm
    let body ← Stmt.visitAll body
    leave (.commClause casePos comm colon body)
  | .select selectPos body => do
    let leave ← v.stmt (.select selectPos body)
    leave (.select selectPos (← body.visit .inner))
  | .forLoop forPos init cond post body => do
    let leave ← v.stmt (.forLoop forPos init cond post body)
    let init ← Stmt.visitOpt init
    let cond ← Expr.visitOpt cond
    let post ← Stmt.visitOpt post
    let body ← body.visit .inner
    leave (.forLoop forPos init cond post body)
  | .range forPos key value op rangePos operand body => do
    let leave ← v.stmt (.range forPos key value op rangePos operand body)
    let key ← Expr.visitOpt key
    let value ← Expr.visitOpt value
    let operand ← operand.visit
    let body ← body.visit .inner
    leave (.range forPos key value op rangePos operand body)

def Stmt.visitOpt : Option Stmt → m (Option Stmt)
  | none => pure none
  | some s => return some (← s.visit)

def Stmt.visitAll : List Stmt → m (List Stmt)
  | [] => pure []
  | s :: ss => return (← s.visit) :: (← Stmt.visitAll ss)

def GenDecl.visit : GenDecl → m GenDecl
  | ⟨doc, kwPos, kind, lparen, specs, rparen⟩ => do
    let leave ← v.decl ⟨doc, kwPos, kind, lparen, specs, rparen⟩
    leave ⟨doc, kwPos, kind, lparen, ← Spec.visitAll specs, rparen⟩

def Spec.visit : Spec → m Spec
  | .importSpec spec => pure (.importSpec spec)
  | .valueSpec doc names type assign values comment => do
    let type ← TypeExpr.visitOpt type
    let values ← Expr.visitAll values
    return .valueSpec doc names type assign values comment
  | .typeSpec doc name typeParams assign type comment => do
    let typeParams ← FieldList.visitOpt typeParams
    let type ← type.visit
    return .typeSpec doc name typeParams assign type comment

def Spec.visitAll : List Spec → m (List Spec)
  | [] => pure []
  | s :: ss => return (← s.visit) :: (← Spec.visitAll ss)

end

/-- The body of a function, which may be missing. -/
def Block.visitBody : Option Block → m (Option Block)
  | none => pure none
  | some body => return some (← body.visit v .body)

def FuncDecl.visit (f : FuncDecl) : m FuncDecl := do
  let leave ← v.func f
  let receiver ← FieldList.visitOpt v f.receiver
  let typeParams ← FieldList.visitOpt v f.typeParams
  let sig ← f.sig.visit v
  let body ← Block.visitBody v f.body
  leave { f with receiver, typeParams, sig, body }

def Decl.visit : Decl → m Decl
  | .gen d => return .gen (← d.visit v)
  | .func f => return .func (← f.visit v)

def Decl.visitAll : List Decl → m (List Decl)
  | [] => pure []
  | d :: ds => return (← d.visit v) :: (← Decl.visitAll ds)

end GoLayout
