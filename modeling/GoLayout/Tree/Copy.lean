import GoLayout.Tree.Basic

/-!
Copies of trees. A copy has its tokens in other places, keeps every optional token present or
absent, and has no comments attached. Names may be filled in by other expressions on the way.
-/

namespace GoLayout

/-- How a tree is copied: where each token goes, and what takes the place of a name that stands as
an expression. -/
structure Copying where
  place : Span → Span
  fill : Ident → Option Expr

namespace Copying

/-- Every token goes to one offset. -/
def stamp (pos : Nat) : Copying := ⟨fun _ => .point pos, fun _ => none⟩

variable (c : Copying)

def ident (i : Ident) : Ident := ⟨i.text, c.place i.span⟩

def literal (l : Literal) : Literal := ⟨l.kind, l.text, c.place l.span⟩

def qualifier (q : Qualifier) : Qualifier := ⟨c.ident q.package, c.place q.dot⟩

def brackets (b : Brackets) : Brackets := ⟨c.place b.left, c.place b.right⟩

def chanDir : ChanDir → ChanDir
  | .both => .both
  | .send arrow => .send (c.place arrow)
  | .recv arrow => .recv (c.place arrow)

def importName : ImportName → ImportName
  | .dot span => .dot (c.place span)
  | .name id => .name (c.ident id)

def importSpec (s : ImportSpec) : ImportSpec :=
  ⟨none, s.name.map c.importName, c.literal s.path, none⟩

end Copying

variable (c : Copying)

mutual

def Expr.copy : Expr → Expr
  | .ident name => (c.fill name).getD (.ident (c.ident name))
  | .literal lit => .literal (c.literal lit)
  | .func funcPos sig body => .func (c.place funcPos) sig.copy body.copy
  | .composite type lbrace elements rbrace =>
    .composite (TypeExpr.copyOpt type) (c.place lbrace) (Expr.copyAll elements) (c.place rbrace)
  | .paren lparen inner rparen => .paren (c.place lparen) inner.copy (c.place rparen)
  | .selector operand dot member => .selector operand.copy (c.place dot) (c.ident member)
  | .index operand lbrack indices rbrack =>
    .index operand.copy (c.place lbrack) (Expr.copyAll indices) (c.place rbrack)
  | .slice operand lbrack lo hi max full rbrack =>
    .slice operand.copy (c.place lbrack) (Expr.copyOpt lo) (Expr.copyOpt hi) (Expr.copyOpt max)
      full (c.place rbrack)
  | .assertion operand dot lparen type rparen =>
    .assertion operand.copy (c.place dot) (c.place lparen) (TypeExpr.copyOpt type)
      (c.place rparen)
  | .call fn lparen args spread rparen =>
    .call fn.copy (c.place lparen) (Expr.copyAll args) (spread.map c.place) (c.place rparen)
  | .unary op opPos operand => .unary op (c.place opPos) operand.copy
  | .binary left op opPos right => .binary left.copy op (c.place opPos) right.copy
  | .keyValue key colon value => .keyValue key.copy (c.place colon) value.copy
  | .type t => .type t.copy

def Expr.copyOpt : Option Expr → Option Expr
  | none => none
  | some e => some e.copy

def Expr.copyAll : List Expr → List Expr
  | [] => []
  | e :: es => e.copy :: Expr.copyAll es

def TypeExpr.copy : TypeExpr → TypeExpr
  | .named qualifier name => .named (qualifier.map c.qualifier) (c.ident name)
  | .generic qualifier name lbrack args rbrack =>
    .generic (qualifier.map c.qualifier) (c.ident name) (c.place lbrack) (TypeExpr.copyAll args)
      (c.place rbrack)
  | .pointer star elem => .pointer (c.place star) elem.copy
  | .array lbrack len rbrack elem => .array (c.place lbrack) len.copy (c.place rbrack) elem.copy
  | .countedArray lbrack dots rbrack elem =>
    .countedArray (c.place lbrack) (c.place dots) (c.place rbrack) elem.copy
  | .slice lbrack rbrack elem => .slice (c.place lbrack) (c.place rbrack) elem.copy
  | .map mapPos lbrack key rbrack value =>
    .map (c.place mapPos) (c.place lbrack) key.copy (c.place rbrack) value.copy
  | .chan dir chanPos elem => .chan (c.chanDir dir) (c.place chanPos) elem.copy
  | .struct structPos fields => .struct (c.place structPos) fields.copy
  | .interface interfacePos elements => .interface (c.place interfacePos) elements.copy
  | .func funcPos sig => .func (funcPos.map c.place) sig.copy
  | .paren lparen inner rparen => .paren (c.place lparen) inner.copy (c.place rparen)
  | .variadic dots elem => .variadic (c.place dots) elem.copy
  | .union terms => .union (TypeExpr.copyAll terms)
  | .tilde tildePos inner => .tilde (c.place tildePos) inner.copy

def TypeExpr.copyOpt : Option TypeExpr → Option TypeExpr
  | none => none
  | some t => some t.copy

def TypeExpr.copyAll : List TypeExpr → List TypeExpr
  | [] => []
  | t :: ts => t.copy :: TypeExpr.copyAll ts

def Field.copy : Field → Field
  | ⟨_, names, type, tag, _⟩ => ⟨none, names.map c.ident, type.copy, tag.map c.literal, none⟩

def Field.copyAll : List Field → List Field
  | [] => []
  | f :: fs => f.copy :: Field.copyAll fs

def FieldList.copy : FieldList → FieldList
  | ⟨brackets, fields⟩ => ⟨brackets.map c.brackets, Field.copyAll fields⟩

def FieldList.copyOpt : Option FieldList → Option FieldList
  | none => none
  | some fields => some fields.copy

def Signature.copy : Signature → Signature
  | ⟨params, results⟩ => ⟨params.copy, FieldList.copyOpt results⟩

def Block.copy : Block → Block
  | ⟨lbrace, stmts, rbrace⟩ => ⟨c.place lbrace, Stmt.copyAll stmts, c.place rbrace⟩

def Stmt.copy : Stmt → Stmt
  | .decl d => .decl d.copy
  | .empty span => .empty (c.place span)
  | .labeled label colon stmt => .labeled (c.ident label) (c.place colon) stmt.copy
  | .expr e => .expr e.copy
  | .send chan arrow value => .send chan.copy (c.place arrow) value.copy
  | .incDec operand op opPos => .incDec operand.copy op (c.place opPos)
  | .assign lhs op opPos rhs =>
    .assign (Expr.copyAll lhs) op (c.place opPos) (Expr.copyAll rhs)
  | .go goPos call => .go (c.place goPos) call.copy
  | .defer deferPos call => .defer (c.place deferPos) call.copy
  | .returns returnPos results => .returns (c.place returnPos) (Expr.copyAll results)
  | .branch kind kwPos label => .branch kind (c.place kwPos) (label.map c.ident)
  | .block b => .block b.copy
  | .ifElse ifPos init cond body orElse =>
    .ifElse (c.place ifPos) (Stmt.copyOpt init) cond.copy body.copy (Stmt.copyOpt orElse)
  | .caseClause casePos values colon body =>
    .caseClause (c.place casePos) (Expr.copyAll values) (c.place colon) (Stmt.copyAll body)
  | .switch switchPos init tag body =>
    .switch (c.place switchPos) (Stmt.copyOpt init) (Expr.copyOpt tag) body.copy
  | .typeSwitch switchPos init guarded body =>
    .typeSwitch (c.place switchPos) (Stmt.copyOpt init) guarded.copy body.copy
  | .commClause casePos comm colon body =>
    .commClause (c.place casePos) (Stmt.copyOpt comm) (c.place colon) (Stmt.copyAll body)
  | .select selectPos body => .select (c.place selectPos) body.copy
  | .forLoop forPos init cond post body =>
    .forLoop (c.place forPos) (Stmt.copyOpt init) (Expr.copyOpt cond) (Stmt.copyOpt post) body.copy
  | .range forPos key value op rangePos operand body =>
    .range (c.place forPos) (Expr.copyOpt key) (Expr.copyOpt value)
      (op.map fun (op, opPos) => (op, c.place opPos)) (c.place rangePos) operand.copy body.copy

def Stmt.copyOpt : Option Stmt → Option Stmt
  | none => none
  | some s => some s.copy

def Stmt.copyAll : List Stmt → List Stmt
  | [] => []
  | s :: ss => s.copy :: Stmt.copyAll ss

def GenDecl.copy : GenDecl → GenDecl
  | ⟨_, kwPos, kind, lparen, specs, rparen⟩ =>
    ⟨none, c.place kwPos, kind, lparen.map c.place, Spec.copyAll specs, rparen.map c.place⟩

def Spec.copy : Spec → Spec
  | .importSpec spec => .importSpec (c.importSpec spec)
  | .valueSpec _ names type assign values _ =>
    .valueSpec none (names.map c.ident) (TypeExpr.copyOpt type) (assign.map c.place)
      (Expr.copyAll values) none
  | .typeSpec _ name typeParams assign type _ =>
    .typeSpec none (c.ident name) (FieldList.copyOpt typeParams) (assign.map c.place) type.copy
      none

def Spec.copyAll : List Spec → List Spec
  | [] => []
  | s :: ss => s.copy :: Spec.copyAll ss

end

def FuncDecl.copy (f : FuncDecl) : FuncDecl :=
  { doc := none
    funcPos := c.place f.funcPos
    receiver := f.receiver.map (·.copy c)
    name := c.ident f.name
    typeParams := f.typeParams.map (·.copy c)
    sig := f.sig.copy c
    body := f.body.map (·.copy c) }

def Decl.copy : Decl → Decl
  | .gen d => .gen (d.copy c)
  | .func f => .func (f.copy c)

/-- A copy with every token at `pos`. -/
def Expr.restamp (e : Expr) (pos : Nat) : Expr := e.copy (.stamp pos)

/-- A copy with every token at `pos`. -/
def Spec.restamp (s : Spec) (pos : Nat) : Spec := s.copy (.stamp pos)

/-- A copy with every token at `pos`. -/
def Decl.restamp (d : Decl) (pos : Nat) : Decl := d.copy (.stamp pos)

end GoLayout
