import GoLayout.Comment.Attach
import GoLayout.Tree.Basic

/-!
The cursor that readers of the grammar move over the tokens of a source, and the readers that look
at its token or step over it. The cursor only ever moves forward, and it stays on the last token.
-/

namespace GoLayout.Grammar

/-- The token looked at, and those behind it. -/
structure Cursor where
  current : Attached
  rest : List Attached

/-- The cursor on the token behind the current one. -/
def Cursor.next (c : Cursor) : Cursor :=
  match c.rest with
  | [] => c
  | t :: ts => ⟨t, ts⟩

/-- How many brackets are open around the cursor. In the header of a control statement, outside of
all brackets in it, the level is below zero: there an opening brace behind the name of a type opens
the body of the statement, and not a literal. -/
abbrev Level := Int

/-- Readers move the cursor, keep track of the level, or fail at a place. -/
abbrev Reader (α : Type) := StateT Cursor (StateT Level (Except Diagnostic)) α

variable {α : Type}

/-- The current level. -/
def level : Reader Level := getThe Level

/-- What encloses a part of the source: brackets of any kind, the braces of a function, or the
keyword and the body of a control statement. -/
inductive Enclosure where
  | brackets | body | header
deriving DecidableEq, Repr

/-- The level inside. -/
def Enclosure.enter : Enclosure → (outer : Level) → Level
  | .brackets, outer => outer + 1
  | .body, _ => 0
  | .header, _ => -1

/-- The level behind, when the inside began on the level `outer` and ended on `inner`. -/
def Enclosure.leave : Enclosure → (outer inner : Level) → Level
  | .brackets, _, inner => inner - 1
  | .body, outer, _ | .header, outer, _ => outer

/-- Reads what is enclosed. -/
def enclosed (e : Enclosure) (r : Reader α) : Reader α := do
  let outer ← level
  set (e.enter outer)
  let a ← r
  modifyThe Level (e.leave outer)
  return a

/-- The kind of the current token. -/
def peek : Reader TokenKind := return (← get).current.kind

/-- The kind of the token behind the current one. -/
def peekNext : Reader TokenKind := return (← get).next.current.kind

/-- The span of the current token. -/
def here : Reader Span := return (← get).current.span

/-- The group that leads the current token. -/
def lead : Reader Link := return (← get).current.lead

/-- The group that trails the token before the current one. -/
def trail : Reader Link := return (← get).current.trail

def failAt (span : Span) (fault : SyntaxFault) : Reader α :=
  throw ⟨.grammatical fault, span⟩

/-- Fails at the current token, where something else was wanted. -/
def unexpected (wanted : Expected) : Reader α := do
  failAt (← here) (.unexpected wanted (← peek))

/-- Steps over the current token, whatever it is. -/
def step : Reader Span := do
  let span ← here
  modify Cursor.next
  return span

/-- Whether the current token is the given one. -/
def looksAt (kind : TokenKind) : Reader Bool := return (← peek) == kind

/-- Steps over the given token if it is there. -/
def accept (kind : TokenKind) : Reader (Option Span) := do
  if ← looksAt kind then return some (← step) else return none

/-- Steps over the given token, or fails. -/
def expect (kind : TokenKind) (wanted : Expected) : Reader Span := do
  if ← looksAt kind then step else unexpected wanted

def acceptMark (m : Mark) : Reader (Option Span) := accept (.mark m)

def expectMark (m : Mark) : Reader Span := expect (.mark m) (.mark m)

def expectKeyword (k : Keyword) : Reader Span := expect (.keyword k) (.keyword k)

/-- The end of a statement, spec or field. Before a closing parenthesis or brace and at the end of
the source it needs no semicolon. -/
def terminator : Reader Unit := do
  match ← peek with
  | .mark .rparen | .mark .rbrace | .eof => return ()
  | .mark .semi => let _ ← step
  | _ => unexpected .terminator

def ident : Reader Ident := do
  match ← peek with
  | .name text => return ⟨text, ← step⟩
  | _ => unexpected .identifier

/-- A literal, if there is one. -/
def literal? : Reader (Option Literal) := do
  match ← peek with
  | .literal kind text => return some ⟨kind, text, ← step⟩
  | _ => return none

def stringLiteral : Reader Literal := do
  match ← peek with
  | .literal .string text => return ⟨.string, text, ← step⟩
  | _ => unexpected .stringLiteral

/-! ### Repetition

Each repetition takes a bound on its rounds. A round that goes on has moved the cursor, so a bound
above the number of tokens left is never reached. -/

/-- The reading came to a bound that is out of reach for a grammar that moves on. -/
def cutOff : Reader α := do failAt (← here) .cutOff

/-- Items as long as there is one. -/
def many (item : Reader (Option α)) : (rounds : Nat) → Reader (List α)
  | 0 => cutOff
  | n + 1 => do
    match ← item with
    | some a => return a :: (← many item n)
    | none => return []

/-- Changes a value as long as there is something to change it by. -/
def grow (change : α → Reader (Option α)) : (rounds : Nat) → α → Reader α
  | 0, _ => cutOff
  | n + 1, a => do
    match ← change a with
    | some b => grow change n b
    | none => return a

/-- One or more items with `sep` between them. -/
def sepBy (sep : Mark) (item : Reader α) : (rounds : Nat) → Reader (List α)
  | 0 => cutOff
  | n + 1 => do
    let a ← item
    match ← acceptMark sep with
    | some _ => return a :: (← sepBy sep item n)
    | none => return [a]

/-- Whether the cursor is on the closing mark or at the end of the source. -/
def atEnd (closer : Mark) : Reader Bool := do
  let kind ← peek
  return kind == .mark closer || kind == .eof

/-- Items up to the closing mark. -/
def upTo (closer : Mark) (item : Reader α) : (rounds : Nat) → Reader (List α) :=
  many do if ← atEnd closer then return none else return some (← item)

/-- Items with commas between them up to the closing mark, which a comma may precede. -/
def commaList (closer : Mark) (item : Reader α) : (rounds : Nat) → Reader (List α)
  | 0 => cutOff
  | n + 1 => do
    if ← atEnd closer then return []
    let a ← item
    match ← acceptMark .comma with
    | some _ => return a :: (← commaList closer item n)
    | none => return [a]

end GoLayout.Grammar
