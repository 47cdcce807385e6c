import GoLayout.Tree.Basic

/-!
The extent of a node: `pos` is the offset of its first token and `stop` the offset behind its last
one. Absent tokens are passed over, and attached comments are not part of the extent.
-/

namespace GoLayout

/-! ### Where nodes begin -/

mutual

def Expr.pos : Expr → Nat
  | .ident name => name.span.start
  | .literal lit => lit.span.start
  | .func funcPos _ _ => funcPos.start
  | .composite (some type) _ _ _ => type.pos
  | .composite none lbrace _ _ => lbrace.start
  | .paren lparen _ _ => lparen.start
  | .selector operand _ _ => operand.pos
  | .index operand _ _ _ => operand.pos
  | .slice operand _ _ _ _ _ _ => operand.pos
  | .assertion operand _ _ _ _ => operand.pos
  | .call fn _ _ _ _ => fn.pos
  | .unary _ opPos _ => opPos.start
  | .binary left _ _ _ => left.pos
  | .keyValue key _ _ => key.pos
  | .type t => t.pos

def TypeExpr.pos : TypeExpr → Nat
  | .named qualifier name => (qualifier.elim name (·.package)).span.start
  | .generic qualifier name _ _ _ => (qualifier.elim name (·.package)).span.start
  | .pointer star _ => star.start
  | .array lbrack _ _ _ => lbrack.start
  | .countedArray lbrack _ _ _ => lbrack.start
  | .slice lbrack _ _ => lbrack.start
  | .map mapPos _ _ _ _ => mapPos.start
  | .chan (.recv arrow) _ _ => arrow.start
  | .chan _ chanPos _ => chanPos.start
  | .struct structPos _ => structPos.start
  | .interface interfacePos _ => interfacePos.start
  | .func (some funcPos) _ => funcPos.start
  | .func none sig => sig.pos
  | .paren lparen _ _ => lparen.start
  | .variadic dots _ => dots.start
  | .union terms => TypeExpr.firstPos terms
  | .tilde tildePos _ => tildePos.start

def TypeExpr.firstPos : List TypeExpr → Nat
  | [] => 0
  | type :: _ => type.pos

def Signature.pos : Signature → Nat
  | ⟨params, _⟩ => params.pos

def FieldList.pos : FieldList → Nat
  | ⟨some brackets, _⟩ => brackets.left.start
  | ⟨none, fields⟩ => Field.firstPos fields

def Field.pos : Field → Nat
  | ⟨_, name :: _, _, _, _⟩ => name.span.start
  | ⟨_, [], type, _, _⟩ => type.pos

def Field.firstPos : List Field → Nat
  | [] => 0
  | field :: _ => field.pos

end

/-! ### Where nodes end -/

mutual

def Expr.stop : Expr → Nat
  | .ident name => name.span.stop
  | .literal lit => lit.span.stop
  | .func _ _ body => body.rbrace.stop
  | .composite _ _ _ rbrace => rbrace.stop
  | .paren _ _ rparen => rparen.stop
  | .selector _ _ member => member.span.stop
  | .index _ _ _ rbrack => rbrack.stop
  | .slice _ _ _ _ _ _ rbrack => rbrack.stop
  | .assertion _ _ _ _ rparen => rparen.stop
  | .call _ _ _ _ rparen => rparen.stop
  | .unary _ _ operand => operand.stop
  | .binary _ _ _ right => right.stop
  | .keyValue _ _ value => value.stop
  | .type t => t.stop

def TypeExpr.stop : TypeExpr → Nat
  | .named _ name => name.span.stop
  | .generic _ _ _ _ rbrack => rbrack.stop
  | .pointer _ elem => elem.stop
  | .array _ _ _ elem => elem.stop
  | .countedArray _ _ _ elem => elem.stop
  | .slice _ _ elem => elem.stop
  | .map _ _ _ _ value => value.stop
  | .chan _ _ elem => elem.stop
  | .struct structPos fields => fields.stop?.getD structPos.stop
  | .interface interfacePos elements => elements.stop?.getD interfacePos.stop
  | .func _ sig => sig.stop
  | .paren _ _ rparen => rparen.stop
  | .variadic _ elem => elem.stop
  | .union terms => TypeExpr.lastStop terms
  | .tilde _ inner => inner.stop

def TypeExpr.lastStop : List TypeExpr → Nat
  | [] => 0
  | [type] => type.stop
  | _ :: rest => TypeExpr.lastStop rest

def Signature.stop : Signature → Nat
  | ⟨params, none⟩ => params.stop?.getD 0
  | ⟨params, some results⟩ => (results.stop?.or params.stop?).getD 0

def FieldList.stop? : FieldList → Option Nat
  | ⟨some brackets, _⟩ => some brackets.right.stop
  | ⟨none, fields⟩ => Field.lastStop? fields

def Field.stop : Field → Nat
  | ⟨_, _, _, some tag, _⟩ => tag.span.stop
  | ⟨_, _, type, none, _⟩ => type.stop

def Field.lastStop? : List Field → Option Nat
  | [] => none
  | [field] => some field.stop
  | _ :: rest => Field.lastStop? rest

end

/-! ### Declarations and statements -/

namespace Spec

def pos : Spec → Nat
  | .importSpec spec =>
    match spec.name with
    | some (.dot span) => span.start
    | some (.name id) => id.span.start
    | none => spec.path.span.start
  | .valueSpec _ names _ _ _ _ => names.head?.elim 0 (·.span.start)
  | .typeSpec _ name _ _ _ _ => name.span.start

def stop : Spec → Nat
  | .importSpec spec => spec.path.span.stop
  | .valueSpec _ names type _ values _ =>
    match values.getLast?, type with
    | some value, _ => value.stop
    | none, some type => type.stop
    | none, none => names.getLast?.elim 0 (·.span.stop)
  | .typeSpec _ _ _ _ type _ => type.stop

end Spec

namespace GenDecl

def pos (d : GenDecl) : Nat := d.kwPos.start

def stop (d : GenDecl) : Nat :=
  match d.rparen with
  | some rparen => rparen.stop
  | none => d.specs.getLast?.elim d.kwPos.stop (·.stop)

end GenDecl

namespace FuncDecl

def pos (f : FuncDecl) : Nat := f.funcPos.start

def stop (f : FuncDecl) : Nat :=
  match f.body with
  | some body => body.rbrace.stop
  | none => f.sig.stop

end FuncDecl

namespace Decl

def pos : Decl → Nat
  | .gen d => d.pos
  | .func f => f.pos

def stop : Decl → Nat
  | .gen d => d.stop
  | .func f => f.stop

end Decl

namespace Stmt

def pos : Stmt → Nat
  | .decl d => d.pos
  | .empty span => span.start
  | .labeled label _ _ => label.span.start
  | .expr e => e.pos
  | .send chan _ _ => chan.pos
  | .incDec operand _ _ => operand.pos
  | .assign lhs _ opPos _ => lhs.head?.elim opPos.start (·.pos)
  | .go goPos _ => goPos.start
  | .defer deferPos _ => deferPos.start
  | .returns returnPos _ => returnPos.start
  | .branch _ kwPos _ => kwPos.start
  | .block b => b.lbrace.start
  | .ifElse ifPos _ _ _ _ => ifPos.start
  | .caseClause casePos _ _ _ => casePos.start
  | .switch switchPos _ _ _ => switchPos.start
  | .typeSwitch switchPos _ _ _ => switchPos.start
  | .commClause casePos _ _ _ => casePos.start
  | .select selectPos _ => selectPos.start
  | .forLoop forPos _ _ _ _ => forPos.start
  | .range forPos _ _ _ _ _ _ => forPos.start

end Stmt

mutual

def Stmt.stop : Stmt → Nat
  | .decl d => d.stop
  | .empty span => span.stop
  | .labeled _ _ stmt => stmt.stop
  | .expr e => e.stop
  | .send _ _ value => value.stop
  | .incDec _ _ opPos => opPos.stop
  | .assign _ _ opPos rhs => rhs.getLast?.elim opPos.stop (·.stop)
  | .go _ call => call.stop
  | .defer _ call => call.stop
  | .returns returnPos results => results.getLast?.elim returnPos.stop (·.stop)
  | .branch _ kwPos label => label.elim kwPos.stop (·.span.stop)
  | .block b => b.rbrace.stop
  | .ifElse _ _ _ body none => body.rbrace.stop
  | .ifElse _ _ _ _ (some orElse) => orElse.stop
  | .caseClause _ _ colon body => (Stmt.lastStop? body).getD colon.stop
  | .switch _ _ _ body => body.rbrace.stop
  | .typeSwitch _ _ _ body => body.rbrace.stop
  | .commClause _ _ colon body => (Stmt.lastStop? body).getD colon.stop
  | .select _ body => body.rbrace.stop
  | .forLoop _ _ _ _ body => body.rbrace.stop
  | .range _ _ _ _ _ _ body => body.rbrace.stop

def Stmt.lastStop? : List Stmt → Option Nat
  | [] => none
  | [stmt] => some stmt.stop
  | _ :: rest => Stmt.lastStop? rest

end

end GoLayout
