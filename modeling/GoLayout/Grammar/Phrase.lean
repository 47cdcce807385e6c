import GoLayout.Grammar.Cursor

/-!
Phrases: the parts of the grammar through which it comes back to itself. A rule for a phrase is
written against readers for all phrases, so the rules themselves do not recurse.
-/

namespace GoLayout.Grammar

/-- The elements of a composite literal in their braces. -/
structure Elements where
  lbrace : Span
  list : List Expr
  rbrace : Span

inductive Phrase where
  | type
  /-- An expression of operators that bind at least as tight as `min`. -/
  | binary (min : Nat)
  | unary
  | elements
  | stmt
  | ifStmt

/-- What a phrase reads as. -/
@[reducible]
def Phrase.Value : Phrase → Type
  | .type => TypeExpr
  | .binary _ | .unary => Expr
  | .elements => Elements
  | .stmt | .ifStmt => Stmt

/-- Readers for all phrases, and the bound on the rounds of a repetition. -/
structure Readers where
  rounds : Nat
  read : (p : Phrase) → Reader p.Value

namespace Readers

def type (g : Readers) : Reader TypeExpr := g.read .type

def expr (g : Readers) : Reader Expr := g.read (.binary 1)

def exprList (g : Readers) : Reader (List Expr) := sepBy .comma g.expr g.rounds

def identList (g : Readers) : Reader (List Ident) := sepBy .comma ident g.rounds

/-- The statements up to a closing brace or the next clause. -/
def stmtList (g : Readers) : Reader (List Stmt) := many stmt? g.rounds
where
  skipSemis : Reader Unit := do
    let _ ← many (acceptMark .semi) g.rounds
  stmt? : Reader (Option Stmt) := do
    skipSemis
    match ← peek with
    | .mark .rbrace | .keyword .kwCase | .keyword .kwDefault | .eof => return none
    | _ => return some (← g.read .stmt)

def block (g : Readers) : Reader Block := do
  let lbrace ← expectMark .lbrace
  let stmts ← g.stmtList
  return ⟨lbrace, stmts, ← expectMark .rbrace⟩

/-- The body of a function, in which no header and no bracket is open. -/
def body (g : Readers) : Reader Block := enclosed .body g.block

end Readers

end GoLayout.Grammar
