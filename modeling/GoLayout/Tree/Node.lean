import GoLayout.Tree.Extent

/-!
The nodes of a tree, each before the nodes in it, in source order.
-/

namespace GoLayout

inductive Node where
  | decl (decl : GenDecl)
  | func (decl : FuncDecl)
  | stmt (stmt : Stmt)
  | expr (expr : Expr)
  | type (type : TypeExpr)
  | field (field : Field)
  | sig (sig : Signature)

namespace Node

def pos : Node → Nat
  | .decl d => d.pos
  | .func f => f.pos
  | .stmt s => s.pos
  | .expr e => e.pos
  | .type t => t.pos
  | .field f => f.pos
  | .sig s => s.pos

def stop : Node → Nat
  | .decl d => d.stop
  | .func f => f.stop
  | .stmt s => s.stop
  | .expr e => e.stop
  | .type t => t.stop
  | .field f => f.stop
  | .sig s => s.stop

end Node

mutual

/-- The expression and the nodes in it. -/
def Expr.nodes : Expr → List Node
  | .ident name => [.expr (.ident name)]
  | .literal lit => [.expr (.literal lit)]
  | .func funcPos sig body => .expr (.func funcPos sig body) :: (sig.nodes ++ body.nodes)
  | .composite type lbrace elements rbrace =>
    .expr (.composite type lbrace elements rbrace) ::
      (TypeExpr.nodesOpt type ++ Expr.nodesAll elements)
  | .paren lparen inner rparen => .expr (.paren lparen inner rparen) :: inner.nodes
  | .selector operand dot member => .expr (.selector operand dot member) :: operand.nodes
  | .index operand lbrack indices rbrack =>
    .expr (.index operand lbrack indices rbrack) :: (operand.nodes ++ Expr.nodesAll indices)
  | .slice operand lbrack lo hi max full rbrack =>
    .expr (.slice operand lbrack lo hi max full rbrack) ::
      (operand.nodes ++ Expr.nodesOpt lo ++ Expr.nodesOpt hi ++ Expr.nodesOpt max)
  | .assertion operand dot lparen type rparen =>
    .expr (.assertion operand dot lparen type rparen) ::
      (operand.nodes ++ TypeExpr.nodesOpt type)
  | .call fn lparen args spread rparen =>
    .expr (.call fn lparen args spread rparen) :: (fn.nodes ++ Expr.nodesAll args)
  | .unary op opPos operand => .expr (.unary op opPos operand) :: operand.nodes
  | .binary left op opPos right =>
    .expr (.binary left op opPos right) :: (left.nodes ++ right.nodes)
  | .keyValue key colon value => .expr (.keyValue key colon value) :: (key.nodes ++ value.nodes)
  | .type t => .expr (.type t) :: t.nodes

def Expr.nodesOpt : Option Expr → List Node
  | none => []
  | some e => e.nodes

def Expr.nodesAll : List Expr → List Node
  | [] => []
  | e :: es => e.nodes ++ Expr.nodesAll es

/-- The type and the nodes in it. -/
def TypeExpr.nodes : TypeExpr → List Node
  | .named qualifier name => [.type (.named qualifier name)]
  | .generic qualifier name lbrack args rbrack =>
    .type (.generic qualifier name lbrack args rbrack) :: TypeExpr.nodesAll args
  | .pointer star elem => .type (.pointer star elem) :: elem.nodes
  | .array lbrack len rbrack elem =>
    .type (.array lbrack len rbrack elem) :: (len.nodes ++ elem.nodes)
  | .countedArray lbrack dots rbrack elem =>
    .type (.countedArray lbrack dots rbrack elem) :: elem.nodes
  | .slice lbrack rbrack elem => .type (.slice lbrack rbrack elem) :: elem.nodes
  | .map mapPos lbrack key rbrack value =>
    .type (.map mapPos lbrack key rbrack value) :: (key.nodes ++ value.nodes)
  | .chan dir chanPos elem => .type (.chan dir chanPos elem) :: elem.nodes
  | .struct structPos fields => .type (.struct structPos fields) :: fields.nodes
  | .interface interfacePos elements =>
    .type (.interface interfacePos elements) :: elements.nodes
  | .func funcPos sig => .type (.func funcPos sig) :: sig.nodes
  | .paren lparen inner rparen => .type (.paren lparen inner rparen) :: inner.nodes
  | .variadic dots elem => .type (.variadic dots elem) :: elem.nodes
  | .union terms => .type (.union terms) :: TypeExpr.nodesAll terms
  | .tilde tildePos inner => .type (.tilde tildePos inner) :: inner.nodes

def TypeExpr.nodesOpt : Option TypeExpr → List Node
  | none => []
  | some t => t.nodes

def TypeExpr.nodesAll : List TypeExpr → List Node
  | [] => []
  | t :: ts => t.nodes ++ TypeExpr.nodesAll ts

/-- The field and the nodes in it. -/
def Field.nodes : Field → List Node
  | ⟨doc, names, type, tag, comment⟩ => .field ⟨doc, names, type, tag, comment⟩ :: type.nodes

def Field.nodesAll : List Field → List Node
  | [] => []
  | f :: fs => f.nodes ++ Field.nodesAll fs

/-- The nodes in a field list. -/
def FieldList.nodes : FieldList → List Node
  | ⟨_, fields⟩ => Field.nodesAll fields

def FieldList.nodesOpt : Option FieldList → List Node
  | none => []
  | some fields => fields.nodes

/-- The signature and the nodes in it. -/
def Signature.nodes : Signature → List Node
  | ⟨params, results⟩ => .sig ⟨params, results⟩ :: (params.nodes ++ FieldList.nodesOpt results)

/-- The nodes in a block. -/
def Block.nodes : Block → List Node
  | ⟨_, stmts, _⟩ => Stmt.nodesAll stmts

/-- The statement and the nodes in it. -/
def Stmt.nodes : Stmt → List Node
  | .decl d => .stmt (.decl d) :: d.nodes
  | .empty span => [.stmt (.empty span)]
  | .labeled label colon stmt => .stmt (.labeled label colon stmt) :: stmt.nodes
  | .expr e => .stmt (.expr e) :: e.nodes
  | .send chan arrow value => .stmt (.send chan arrow value) :: (chan.nodes ++ value.nodes)
  | .incDec operand op opPos => .stmt (.incDec operand op opPos) :: operand.nodes
  | .assign lhs op opPos rhs =>
    .stmt (.assign lhs op opPos rhs) :: (Expr.nodesAll lhs ++ Expr.nodesAll rhs)
  | .go goPos call => .stmt (.go goPos call) :: call.nodes
  | .defer deferPos call => .stmt (.defer deferPos call) :: call.nodes
  | .returns returnPos results => .stmt (.returns returnPos results) :: Expr.nodesAll results
  | .branch kind kwPos label => [.stmt (.branch kind kwPos label)]
  | .block b => .stmt (.block b) :: b.nodes
  | .ifElse ifPos init cond body orElse =>
    .stmt (.ifElse ifPos init cond body orElse) ::
      (Stmt.nodesOpt init ++ cond.nodes ++ body.nodes ++ Stmt.nodesOpt orElse)
  | .caseClause casePos values colon body =>
    .stmt (.caseClause casePos values colon body) ::
      (Expr.nodesAll values ++ Stmt.nodesAll body)
  | .switch switchPos init tag body =>
    .stmt (.switch switchPos init tag body) ::
      (Stmt.nodesOpt init ++ Expr.nodesOpt tag ++ body.nodes)
  | .typeSwitch switchPos init guarded body =>
    .stmt (.typeSwitch switchPos init guarded body) ::
      (Stmt.nodesOpt init ++ guarded.nodes ++ body.nodes)
  | .commClause casePos comm colon body =>
    .stmt (.commClause casePos comm colon body) :: (Stmt.nodesOpt comm ++ Stmt.nodesAll body)
  | .select selectPos body => .stmt (.select selectPos body) :: body.nodes
  | .forLoop forPos init cond post body =>
    .stmt (.forLoop forPos init cond post body) ::
      (Stmt.nodesOpt init ++ Expr.nodesOpt cond ++ Stmt.nodesOpt post ++ body.nodes)
  | .range forPos key value op rangePos operand body =>
    .stmt (.range forPos key value op rangePos operand body) ::
      (Expr.nodesOpt key ++ Expr.nodesOpt value ++ operand.nodes ++ body.nodes)

def Stmt.nodesOpt : Option Stmt → List Node
  | none => []
  | some s => s.nodes

def Stmt.nodesAll : List Stmt → List Node
  | [] => []
  | s :: ss => s.nodes ++ Stmt.nodesAll ss

/-- The declaration and the nodes in it. -/
def GenDecl.nodes : GenDecl → List Node
  | ⟨doc, kwPos, kind, lparen, specs, rparen⟩ =>
    .decl ⟨doc, kwPos, kind, lparen, specs, rparen⟩ :: Spec.nodesAll specs

/-- The nodes in a spec. -/
def Spec.nodes : Spec → List Node
  | .importSpec _ => []
  | .valueSpec _ _ type _ values _ => TypeExpr.nodesOpt type ++ Expr.nodesAll values
  | .typeSpec _ _ typeParams _ type _ => FieldList.nodesOpt typeParams ++ type.nodes

def Spec.nodesAll : List Spec → List Node
  | [] => []
  | s :: ss => s.nodes ++ Spec.nodesAll ss

end

/-- The function and the nodes in it. -/
def FuncDecl.nodes (f : FuncDecl) : List Node :=
  .func f ::
    (FieldList.nodesOpt f.receiver ++ FieldList.nodesOpt f.typeParams ++ f.sig.nodes ++
      (f.body.map (·.nodes)).getD [])

def Decl.nodes : Decl → List Node
  | .gen d => d.nodes
  | .func f => f.nodes

/-- All nodes of a file. -/
def SourceFile.nodes (f : SourceFile) : List Node := f.decls.flatMap (·.nodes)

end GoLayout
