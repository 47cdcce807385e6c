import GoLayout.Comment
import GoLayout.Tree.Operator

/-!
The syntax tree of a Go file. A node keeps the span of each of its tokens, with optional tokens
absent or present, so that the layout of a file can be told from its tree and its line table.
Declarations, specs and fields also keep the comment groups above and behind them.

Tokens that are there together or not at all are one optional value: the two brackets of a list, a
package name and the dot behind it, the direction of a channel and its arrow, the operator of a
range and its place. Reading a file and changing its tree keep them together, so a tree with one of
them alone, say with a list that is opened and not closed, is not a tree here.
-/

namespace GoLayout

structure Ident where
  text : String
  span : Span
deriving DecidableEq, Repr

/-- A literal as it is spelled, quotes included. -/
structure Literal where
  kind : LiteralKind
  text : String
  span : Span
deriving DecidableEq, Repr

/-- A package name and the dot behind it, which is always there. -/
structure Qualifier where
  package : Ident
  dot : Span
deriving DecidableEq, Repr

/-- The brackets around a list, of which none stands alone. -/
structure Brackets where
  left : Span
  right : Span
deriving DecidableEq, Repr

/-- The direction of a channel, with the arrow that shows it. -/
inductive ChanDir where
  | both
  | send (arrow : Span)
  | recv (arrow : Span)
deriving DecidableEq, Repr

inductive ImportName where
  | dot (span : Span)
  | name (id : Ident)
deriving DecidableEq, Repr

structure ImportSpec where
  doc : Link
  name : Option ImportName
  path : Literal
  comment : Link
deriving DecidableEq, Repr

mutual

inductive Expr where
  | ident (name : Ident)
  | literal (lit : Literal)
  | func (funcPos : Span) (sig : Signature) (body : Block)
  | composite (type : Option TypeExpr) (lbrace : Span) (elements : List Expr) (rbrace : Span)
  | paren (lparen : Span) (inner : Expr) (rparen : Span)
  | selector (operand : Expr) (dot : Span) (member : Ident)
  | index (operand : Expr) (lbrack : Span) (indices : List Expr) (rbrack : Span)
  /-- `full` tells a slice with two colons, also where the last bound is missing. -/
  | slice (operand : Expr) (lbrack : Span) (lo hi max : Option Expr) (full : Bool) (rbrack : Span)
  /-- Without a type, the guard of a type switch. -/
  | assertion (operand : Expr) (dot lparen : Span) (type : Option TypeExpr) (rparen : Span)
  | call (fn : Expr) (lparen : Span) (args : List Expr) (spread : Option Span) (rparen : Span)
  | unary (op : UnaryOp) (opPos : Span) (operand : Expr)
  | binary (left : Expr) (op : BinaryOp) (opPos : Span) (right : Expr)
  | keyValue (key : Expr) (colon : Span) (value : Expr)
  | type (type : TypeExpr)

inductive TypeExpr where
  | named (qualifier : Option Qualifier) (name : Ident)
  | generic (qualifier : Option Qualifier) (name : Ident) (lbrack : Span) (args : List TypeExpr)
      (rbrack : Span)
  | pointer (star : Span) (elem : TypeExpr)
  | array (lbrack : Span) (len : Expr) (rbrack : Span) (elem : TypeExpr)
  /-- An array whose length is that of its literal. -/
  | countedArray (lbrack dots rbrack : Span) (elem : TypeExpr)
  | slice (lbrack rbrack : Span) (elem : TypeExpr)
  | map (mapPos lbrack : Span) (key : TypeExpr) (rbrack : Span) (value : TypeExpr)
  | chan (dir : ChanDir) (chanPos : Span) (elem : TypeExpr)
  | struct (structPos : Span) (fields : FieldList)
  | interface (interfacePos : Span) (elements : FieldList)
  /-- A method of an interface has no keyword. -/
  | func (funcPos : Option Span) (sig : Signature)
  | paren (lparen : Span) (inner : TypeExpr) (rparen : Span)
  | variadic (dots : Span) (elem : TypeExpr)
  | union (terms : List TypeExpr)
  | tilde (tildePos : Span) (inner : TypeExpr)

/-- A struct field, an interface element or a parameter; several names may share a type. -/
structure Field where
  doc : Link
  names : List Ident
  type : TypeExpr
  tag : Option Literal
  comment : Link

/-- A single result may stand without brackets. -/
structure FieldList where
  brackets : Option Brackets
  fields : List Field

structure Signature where
  params : FieldList
  results : Option FieldList

structure Block where
  lbrace : Span
  stmts : List Stmt
  rbrace : Span

inductive Stmt where
  | decl (decl : GenDecl)
  | empty (span : Span)
  | labeled (label : Ident) (colon : Span) (stmt : Stmt)
  | expr (expr : Expr)
  | send (chan : Expr) (arrow : Span) (value : Expr)
  | incDec (operand : Expr) (op : IncDecOp) (opPos : Span)
  | assign (lhs : List Expr) (op : AssignOp) (opPos : Span) (rhs : List Expr)
  | go (goPos : Span) (call : Expr)
  | defer (deferPos : Span) (call : Expr)
  | returns (returnPos : Span) (results : List Expr)
  | branch (kind : BranchKind) (kwPos : Span) (label : Option Ident)
  | block (block : Block)
  | ifElse (ifPos : Span) (init : Option Stmt) (cond : Expr) (body : Block)
      (orElse : Option Stmt)
  /-- A clause without values is the default. -/
  | caseClause (casePos : Span) (values : List Expr) (colon : Span) (body : List Stmt)
  | switch (switchPos : Span) (init : Option Stmt) (tag : Option Expr) (body : Block)
  | typeSwitch (switchPos : Span) (init : Option Stmt) (guarded : Stmt) (body : Block)
  /-- A clause without a communication is the default. -/
  | commClause (casePos : Span) (comm : Option Stmt) (colon : Span) (body : List Stmt)
  | select (selectPos : Span) (body : Block)
  | forLoop (forPos : Span) (init : Option Stmt) (cond : Option Expr) (post : Option Stmt)
      (body : Block)
  /-- The operator and its place are there together, behind a key. -/
  | range (forPos : Span) (key value : Option Expr) (op : Option (AssignOp × Span))
      (rangePos : Span) (operand : Expr) (body : Block)

/-- A declaration of one spec, or of a group of them in parentheses. -/
structure GenDecl where
  doc : Link
  kwPos : Span
  kind : DeclKind
  lparen : Option Span
  specs : List Spec
  rparen : Option Span

inductive Spec where
  | importSpec (spec : ImportSpec)
  | valueSpec (doc : Link) (names : List Ident) (type : Option TypeExpr) (assign : Option Span)
      (values : List Expr) (comment : Link)
  | typeSpec (doc : Link) (name : Ident) (typeParams : Option FieldList) (assign : Option Span)
      (type : TypeExpr) (comment : Link)

end

/-- Whether an expression is just the given name. -/
def Expr.isName (name : String) : Expr → Bool
  | .ident id => id.text == name
  | _ => false

def Expr.isBlank (e : Expr) : Bool := e.isName "_"

structure FuncDecl where
  doc : Link
  funcPos : Span
  receiver : Option FieldList
  name : Ident
  typeParams : Option FieldList
  sig : Signature
  body : Option Block

inductive Decl where
  | gen (decl : GenDecl)
  | func (decl : FuncDecl)

/-- A file as it was read: its tree, its comments in source order, and its line table. -/
structure SourceFile where
  packagePos : Span
  name : Ident
  doc : Link
  decls : List Decl
  comments : List CommentGroup
  lines : LineTable

end GoLayout
