import GoLayout.Grammar.Stmt

/-!
Reading whole files and single expressions. Every phrase is read by its rule over readers that may
go one level less deep; the depth allowed grows with the number of tokens, so that no source uses
it up.
-/

namespace GoLayout

namespace Grammar

/-- The rule of each phrase. -/
def rule (g : Readers) : (p : Phrase) → Reader p.Value
  | .type => typeRule g
  | .binary min => binaryRule g min
  | .unary => unaryRule g
  | .elements => elementsRule g
  | .stmt => stmtRule g
  | .ifStmt => ifRule g

/-- Reads a phrase that nests at most `depth` deep. -/
def readWithin : (depth : Nat) → (p : Phrase) → Reader p.Value
  | 0, _ => cutOff
  | depth + 1, p => rule ⟨depth, readWithin depth⟩ p

/-- Readers for a source of the given number of tokens. A token is passed at least every few
levels. -/
def readers (tokens : Nat) : Readers :=
  let depth := 8 * (tokens + 1)
  ⟨depth, readWithin depth⟩

variable (g : Readers)

def funcDecl : Reader FuncDecl := do
  let doc ← lead
  let funcPos ← expectKeyword .kwFunc
  let receiver ← if ← looksAt (.mark .lparen) then some <$> valueParams g else pure none
  let name ← ident
  let params ← if ← looksAt (.mark .lbrack) then some <$> typeParams g else pure none
  let sig ← signature g
  let body ← if ← looksAt (.mark .lbrace) then some <$> g.body else pure none
  terminator
  return ⟨doc, funcPos, receiver, name, params, sig, body⟩

/-- The next declaration of a file. -/
def decl? : Reader (Option Decl) := do
  let _ ← many (acceptMark .semi) g.rounds
  match ← peek with
  | .eof => return none
  | .keyword .kwImport => return some (.gen (← genDecl g .imports))
  | .keyword .kwConst => return some (.gen (← genDecl g .consts))
  | .keyword .kwVar => return some (.gen (← genDecl g .vars))
  | .keyword .kwType => return some (.gen (← genDecl g .types))
  | .keyword .kwFunc => return some (.func (← funcDecl g))
  | _ => unexpected .declaration

/-- A file with the given comments and lines. -/
def file (comments : List CommentGroup) (lines : LineTable) : Reader SourceFile := do
  let doc ← lead
  let packagePos ← expectKeyword .kwPackage
  let name ← ident
  terminator
  let decls ← many (decl? g) g.rounds
  return ⟨packagePos, name, doc, decls, comments, lines⟩

/-- An expression with nothing behind it but an end of line. -/
def wholeExpr : Reader Expr := do
  let e ← g.expr
  let _ ← acceptMark .semi
  if ← looksAt .eof then return e else unexpected .endOfExpression

/-- What there is to read in a source: a cursor on its first token, the comment groups and the
lines. -/
structure Input where
  cursor : Cursor
  comments : List CommentGroup
  lines : LineTable

/-- The input that a source makes, unless it has lexical faults. -/
def Input.ofSource (src : String) : Except ParseFailure Input :=
  let scan := Scan.ofSource src
  match scan.faults with
  | first :: rest => .error ⟨first, rest⟩
  | [] =>
    let lines := LineTable.ofSource src
    let eof : Token := ⟨.eof, .point src.utf8ByteSize⟩
    match Attached.attach lines 0 0 (scan.tokens ++ [eof]) scan.comments with
    | (current :: rest, comments) => .ok ⟨⟨current, rest⟩, comments, lines⟩
    | ([], comments) => .ok ⟨⟨⟨eof, none, none⟩, []⟩, comments, lines⟩

/-- Runs a reader from the start of an input. -/
def Input.run {α : Type} (input : Input) (r : Readers → Reader α) : Except ParseFailure α :=
  match r (readers input.cursor.rest.length) input.cursor 0 with
  | .ok ((a, _), _) => .ok a
  | .error fault => .error ⟨fault, []⟩

end Grammar

/-- Reads a Go source file. -/
def SourceFile.parse (src : String) : Except ParseFailure SourceFile := do
  let input ← Grammar.Input.ofSource src
  input.run (Grammar.file · input.comments input.lines)

/-- Reads a single expression, also giving the comments in it. -/
def Expr.parse (src : String) : Except ParseFailure (Expr × List CommentGroup) := do
  let input ← Grammar.Input.ofSource src
  return (← input.run Grammar.wholeExpr, input.comments)

end GoLayout
