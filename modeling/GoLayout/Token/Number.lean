import GoLayout.Token

/-!
Number literals. A number is read part by part, each part as long as it goes: base, digits,
fraction, exponent and the suffix of an imaginary number. Whether the parts make a valid number is
not looked at here.
-/

namespace GoLayout.Number

/-- A part read off the front of a text, and what is left. -/
abbrev Split := List Char × List Char

/-- Reads one part after what was read so far. -/
def more (part : List Char → Split) : Split → Split
  | (taken, rest) =>
    let (next, rest) := part rest
    (taken ++ next, rest)

def isHexMark (c : Char) : Bool := c == 'x' || c == 'X'

def isBaseMark (c : Char) : Bool := isHexMark c || c == 'o' || c == 'O' || c == 'b' || c == 'B'

/-- Whether a number that begins so is hexadecimal. -/
def isHex : List Char → Bool
  | '0' :: x :: _ => isHexMark x
  | _ => false

def isHexDigit (c : Char) : Bool :=
  c.isDigit || ('a' ≤ c && c ≤ 'f') || ('A' ≤ c && c ≤ 'F')

/-- A digit of the base, or the separator `_`. -/
def isDigit (hex : Bool) (c : Char) : Bool :=
  c.isDigit || c == '_' || (hex && isHexDigit c)

def base : List Char → Split
  | '0' :: x :: rest => if isBaseMark x then (['0', x], rest) else ([], '0' :: x :: rest)
  | cs => ([], cs)

def digits (hex : Bool) (cs : List Char) : Split := cs.span (isDigit hex)

/-- A point and the digits behind it. The first point of `..` belongs to no number. -/
def fraction (hex : Bool) : List Char → Split
  | '.' :: '.' :: rest => ([], '.' :: '.' :: rest)
  | '.' :: rest =>
    let (ds, rest) := digits hex rest
    ('.' :: ds, rest)
  | cs => ([], cs)

/-- Marks of an exponent; in a hexadecimal number `e` is a digit. -/
def isExponentMark (hex : Bool) (c : Char) : Bool :=
  c == 'p' || c == 'P' || (!hex && (c == 'e' || c == 'E'))

def sign : List Char → Split
  | c :: rest => if c == '+' || c == '-' then ([c], rest) else ([], c :: rest)
  | [] => ([], [])

def exponent (hex : Bool) : List Char → Split
  | c :: rest =>
    if isExponentMark hex c then more (digits false) (more sign ([c], rest)) else ([], c :: rest)
  | [] => ([], [])

def suffix : List Char → Split
  | 'i' :: rest => (['i'], rest)
  | cs => ([], cs)

/-- Reads the number at the front of `cs`. -/
def read (cs : List Char) : Split :=
  let hex := isHex cs
  more suffix (more (exponent hex) (more (fraction hex) (more (digits hex) (base cs))))

/-- The kind of a number, by its last character and the marks in it. -/
def kind (cs : List Char) : LiteralKind :=
  let hex := isHex cs
  let isFloatMark (c : Char) : Bool :=
    c == '.' || (if hex then c == 'p' || c == 'P' else c == 'e' || c == 'E')
  if cs.getLast? == some 'i' then .imag
  else if cs.any isFloatMark then .float
  else .int

end GoLayout.Number
