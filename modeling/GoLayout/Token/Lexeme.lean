import GoLayout.Comment
import GoLayout.Text.Digit
import GoLayout.Text.Letter
import GoLayout.Token.Number

/-!
Lexemes: the stretches that a source falls into. Each is the longest that can be read where the
one before it ends, and what can be read as nothing else is a stray character, so the lexemes of a
source cover it without gaps.
-/

namespace GoLayout

inductive LexFault where
  | invalidToken
  | unterminatedString
  | unterminatedComment
deriving DecidableEq, Repr

def LexFault.message : LexFault → String
  | .invalidToken => "invalid token"
  | .unterminatedString => "unterminated string"
  | .unterminatedComment => "unterminated comment"

inductive Lexeme where
  | blank
  | newline
  | comment (kind : CommentKind) (text : String)
  /-- A block comment that runs to the end of the source. -/
  | openComment (text : String)
  | token (kind : TokenKind)
  | stray (fault : LexFault)
deriving DecidableEq, Repr

namespace Lexeme

/-- A lexeme, the characters read for it, and what is left. -/
abbrev Reading := Lexeme × List Char × List Char

def isBlank (c : Char) : Bool := c == ' ' || c == '\t' || c == '\x0c'

def isLineEnd (c : Char) : Bool := c == '\n' || c == '\r'

def blank? (cs : List Char) : Option Reading :=
  match cs.span isBlank with
  | ([], _) => none
  | (taken, rest) => some (.blank, taken, rest)

def newline? : List Char → Option Reading
  | '\r' :: '\n' :: rest => some (.newline, ['\r', '\n'], rest)
  | c :: rest => if isLineEnd c then some (.newline, [c], rest) else none
  | [] => none

/-- The text up to and including the next `*/`. -/
def blockBody? : List Char → Option (List Char × List Char)
  | '*' :: '/' :: rest => some (['*', '/'], rest)
  | c :: rest => (blockBody? rest).map fun (taken, rest) => (c :: taken, rest)
  | [] => none

def comment? : List Char → Option Reading
  | '/' :: '/' :: rest =>
    let (body, rest) := rest.span (!isLineEnd ·)
    let taken := '/' :: '/' :: body
    some (.comment .line (String.ofList taken), taken, rest)
  | '/' :: '*' :: rest =>
    match blockBody? rest with
    | some (body, rest) =>
      let taken := '/' :: '*' :: body
      some (.comment .block (String.ofList taken), taken, rest)
    | none =>
      let taken := '/' :: '*' :: rest
      some (.openComment (String.ofList taken), taken, [])
  | _ => none

/-- Whether a name can begin with this character. -/
def startsName (c : Char) : Bool := c == '_' || Text.isLetter c

def continuesName (c : Char) : Bool := startsName c || Text.isDecimal c

/-- A keyword or a name. -/
def word? : List Char → Option Reading
  | c :: cs =>
    if startsName c then
      let (body, rest) := cs.span continuesName
      let text := String.ofList (c :: body)
      let kind := match Keyword.ofSpelling? text with
        | some k => .keyword k
        | none => .name text
      some (.token kind, c :: body, rest)
    else none
  | [] => none

/-- Whether a number begins here: with a digit, or with a point and a digit. -/
def startsNumber : List Char → Bool
  | '.' :: c :: _ => c.isDigit
  | c :: _ => c.isDigit
  | [] => false

def number? (cs : List Char) : Option Reading :=
  if startsNumber cs then
    let (taken, rest) := Number.read cs
    some (.token (.literal (Number.kind taken) (String.ofList taken)), taken, rest)
  else none

/-- The text up to and including the closing quote, on one line. A backslash takes the character
behind it along, whatever it is, but not a newline. -/
def quotedBody? (quote : Char) : List Char → Option (List Char × List Char)
  | '\\' :: c :: rest =>
    if c = '\n' then none
    else (quotedBody? quote rest).map fun (taken, rest) => ('\\' :: c :: taken, rest)
  | c :: rest =>
    if c = quote then some ([c], rest)
    else if c = '\\' || isLineEnd c then none
    else (quotedBody? quote rest).map fun (taken, rest) => (c :: taken, rest)
  | [] => none

/-- The text up to and including the closing back quote. -/
def rawBody? (cs : List Char) : Option (List Char × List Char) :=
  match cs.span (· != '\x60') with
  | (body, quote :: rest) => some (body ++ [quote], rest)
  | (_, []) => none

/-- The body of a literal with this opening quote. A rune holds at least one character. -/
def literalBody? (quote : Char) (cs : List Char) :
    Option (LiteralKind × List Char × List Char) :=
  match quote with
  | '"' => (quotedBody? '"' cs).map (.string, ·)
  | '\x60' => (rawBody? cs).map (.string, ·)
  | '\'' => if cs.head? == some '\'' then none else (quotedBody? '\'' cs).map (.rune, ·)
  | _ => none

def quoted? : List Char → Option Reading
  | quote :: cs =>
    (literalBody? quote cs).map fun (kind, body, rest) =>
      (.token (.literal kind (String.ofList (quote :: body))), quote :: body, rest)
  | [] => none

/-- The marks with their spellings, longer ones first. -/
def marks : List (List Char × Mark) := Mark.all.map fun m => (m.spelling.toList, m)

def mark? (cs : List Char) : Option Reading :=
  marks.findSome? fun (spelling, m) =>
    (spelling.isPrefixOf? cs).map fun rest => (.token (.mark m), spelling, rest)

/-- What a character that begins no lexeme is reported as. -/
def strayFault (c : Char) : LexFault :=
  if c == '"' || c == '\x60' || c == '\'' then .unterminatedString else .invalidToken

/-- Reads the lexeme at the front of `c :: cs`. -/
def read (c : Char) (cs : List Char) : Reading :=
  let here := c :: cs
  (blank? here <|> newline? here <|> comment? here <|> word? here <|> number? here <|>
    quoted? here <|> mark? here).getD (.stray (strayFault c), [c], cs)

/-- The number of bytes of a text in UTF-8. -/
def bytes : List Char → Nat
  | [] => 0
  | c :: cs => c.utf8Size + bytes cs

/-- The lexemes of a text that starts at `pos`, at most `fuel` of them. -/
def readAll (pos : Nat) : (fuel : Nat) → List Char → List (Lexeme × Span)
  | 0, _ => []
  | _, [] => []
  | fuel + 1, c :: cs =>
    let (lexeme, taken, rest) := read c cs
    let stop := pos + bytes taken
    (lexeme, ⟨pos, stop⟩) :: readAll stop fuel rest

/-- The mark that may stand before the first character of a text to tell its encoding. -/
def byteOrderMark : Char := '\ufeff'

/-- The lexemes of a source. A byte order mark at its beginning is blank. -/
def all (src : List Char) : List (Lexeme × Span) :=
  match src with
  | c :: cs =>
    if c = byteOrderMark then
      let stop := bytes [c]
      (.blank, ⟨0, stop⟩) :: readAll stop cs.length cs
    else readAll 0 src.length src
  | [] => []

end Lexeme

end GoLayout
