import GoLayout.Span

/-!
Tokens of Go source: names, literals, keywords, and the marks that serve as operators and
delimiters. Every keyword and mark has a spelling in the source and a label used in messages.
-/

namespace GoLayout

inductive LiteralKind where
  | int | float | imag | rune | string
deriving DecidableEq, Repr

inductive Keyword where
  | kwBreak | kwCase | kwChan | kwConst | kwContinue | kwDefault | kwDefer | kwElse
  | kwFallthrough | kwFor | kwFunc | kwGo | kwGoto | kwIf | kwImport | kwInterface | kwMap
  | kwPackage | kwRange | kwReturn | kwSelect | kwStruct | kwSwitch | kwType | kwVar
deriving DecidableEq, Repr

/-- Operators and delimiters. -/
inductive Mark where
  | ellipsis | shlAssign | shrAssign | andNotAssign | addAssign | subAssign | mulAssign
  | divAssign | modAssign | andAssign | orAssign | xorAssign | shl | shr | andNot | logAnd
  | logOr | equal | notEqual | atMost | atLeast | inc | dec | define | arrow | assign | plus
  | minus | star | slash | percent | amp | pipe | caret | tilde | bang | less | greater
  | lparen | rparen | lbrack | rbrack | lbrace | rbrace | comma | semi | colon | dot
deriving DecidableEq, Repr

namespace Keyword

def all : List Keyword :=
  [.kwBreak, .kwCase, .kwChan, .kwConst, .kwContinue, .kwDefault, .kwDefer, .kwElse,
  .kwFallthrough, .kwFor, .kwFunc, .kwGo, .kwGoto, .kwIf, .kwImport, .kwInterface, .kwMap,
  .kwPackage, .kwRange, .kwReturn, .kwSelect, .kwStruct, .kwSwitch, .kwType, .kwVar]

def spelling : Keyword → String
  | .kwBreak => "break"
  | .kwCase => "case"
  | .kwChan => "chan"
  | .kwConst => "const"
  | .kwContinue => "continue"
  | .kwDefault => "default"
  | .kwDefer => "defer"
  | .kwElse => "else"
  | .kwFallthrough => "fallthrough"
  | .kwFor => "for"
  | .kwFunc => "func"
  | .kwGo => "go"
  | .kwGoto => "goto"
  | .kwIf => "if"
  | .kwImport => "import"
  | .kwInterface => "interface"
  | .kwMap => "map"
  | .kwPackage => "package"
  | .kwRange => "range"
  | .kwReturn => "return"
  | .kwSelect => "select"
  | .kwStruct => "struct"
  | .kwSwitch => "switch"
  | .kwType => "type"
  | .kwVar => "var"

/-- The keyword spelled `word`, if there is one. -/
def ofSpelling? (word : String) : Option Keyword := all.find? (·.spelling == word)

def label (k : Keyword) : String := "Kw" ++ k.spelling.capitalize

end Keyword

namespace Mark

/-- All marks, longer spellings first. -/
def all : List Mark :=
  [.ellipsis, .shlAssign, .shrAssign, .andNotAssign, .addAssign, .subAssign, .mulAssign,
  .divAssign, .modAssign, .andAssign, .orAssign, .xorAssign, .shl, .shr, .andNot, .logAnd,
  .logOr, .equal, .notEqual, .atMost, .atLeast, .inc, .dec, .define, .arrow, .assign, .plus,
  .minus, .star, .slash, .percent, .amp, .pipe, .caret, .tilde, .bang, .less, .greater,
  .lparen, .rparen, .lbrack, .rbrack, .lbrace, .rbrace, .comma, .semi, .colon, .dot]

def spelling : Mark → String
  | .ellipsis => "..."
  | .shlAssign => "<<="
  | .shrAssign => ">>="
  | .andNotAssign => "&^="
  | .addAssign => "+="
  | .subAssign => "-="
  | .mulAssign => "*="
  | .divAssign => "/="
  | .modAssign => "%="
  | .andAssign => "&="
  | .orAssign => "|="
  | .xorAssign => "^="
  | .shl => "<<"
  | .shr => ">>"
  | .andNot => "&^"
  | .logAnd => "&&"
  | .logOr => "||"
  | .equal => "=="
  | .notEqual => "!="
  | .atMost => "<="
  | .atLeast => ">="
  | .inc => "++"
  | .dec => "--"
  | .define => ":="
  | .arrow => "<-"
  | .assign => "="
  | .plus => "+"
  | .minus => "-"
  | .star => "*"
  | .slash => "/"
  | .percent => "%"
  | .amp => "&"
  | .pipe => "|"
  | .caret => "^"
  | .tilde => "~"
  | .bang => "!"
  | .less => "<"
  | .greater => ">"
  | .lparen => "("
  | .rparen => ")"
  | .lbrack => "["
  | .rbrack => "]"
  | .lbrace => "\x7b"
  | .rbrace => "\x7d"
  | .comma => ","
  | .semi => ";"
  | .colon => ":"
  | .dot => "."

def label : Mark → String
  | .ellipsis => "Ellipsis"
  | .shlAssign => "ShlAssign"
  | .shrAssign => "ShrAssign"
  | .andNotAssign => "AndNotAssign"
  | .addAssign => "AddAssign"
  | .subAssign => "SubAssign"
  | .mulAssign => "MulAssign"
  | .divAssign => "DivAssign"
  | .modAssign => "ModAssign"
  | .andAssign => "AndAssign"
  | .orAssign => "OrAssign"
  | .xorAssign => "XorAssign"
  | .shl => "Shl"
  | .shr => "Shr"
  | .andNot => "AndNot"
  | .logAnd => "LAnd"
  | .logOr => "LOr"
  | .equal => "EqEq"
  | .notEqual => "NotEq"
  | .atMost => "Le"
  | .atLeast => "Ge"
  | .inc => "Inc"
  | .dec => "Dec"
  | .define => "Define"
  | .arrow => "Arrow"
  | .assign => "Assign"
  | .plus => "Plus"
  | .minus => "Minus"
  | .star => "Star"
  | .slash => "Slash"
  | .percent => "Percent"
  | .amp => "Amp"
  | .pipe => "Pipe"
  | .caret => "Caret"
  | .tilde => "Tilde"
  | .bang => "Bang"
  | .less => "Lt"
  | .greater => "Gt"
  | .lparen => "LParen"
  | .rparen => "RParen"
  | .lbrack => "LBrack"
  | .rbrack => "RBrack"
  | .lbrace => "LBrace"
  | .rbrace => "RBrace"
  | .comma => "Comma"
  | .semi => "Semi"
  | .colon => "Colon"
  | .dot => "Dot"

end Mark

inductive TokenKind where
  | name (text : String)
  | literal (kind : LiteralKind) (text : String)
  | keyword (k : Keyword)
  | mark (m : Mark)
  | eof
  /-- A stretch of source that is no token. -/
  | invalid
deriving DecidableEq, Repr

namespace TokenKind

/-- How a message names a token that was found. -/
def found : TokenKind → String
  | .name text => text
  | .literal _ text => text
  | .keyword k => k.label
  | .mark .semi => "';'"
  | .mark m => m.label
  | .eof => "EOF"
  | .invalid => "Error"

/-- Whether a line that ends with this token ends a statement. -/
def endsStatement : TokenKind → Bool
  | .name _ | .literal _ _ => true
  | .keyword k => (k matches .kwBreak | .kwContinue | .kwFallthrough | .kwReturn)
  | .mark m => (m matches .inc | .dec | .rparen | .rbrack | .rbrace)
  | .eof | .invalid => false

/-- Whether a type can begin with this token. -/
def startsType : TokenKind → Bool
  | .name _ => true
  | .keyword k => (k matches .kwFunc | .kwMap | .kwChan | .kwStruct | .kwInterface)
  | .mark m => (m matches .lbrack | .star | .lparen | .arrow)
  | _ => false

end TokenKind

structure Token where
  kind : TokenKind
  span : Span
deriving DecidableEq, Repr

end GoLayout
