import GoLayout.Span

/-!
The line table: the offsets at which lines start. Layout is decided by asking the table for the
line of each token, so removing a start joins two lines and adding one breaks a line, while the
offsets of the tokens never move.
-/

namespace GoLayout

/-- Line starts in increasing order, the first of them `0`, over a text of `size` bytes. -/
structure LineTable where
  starts : List Nat
  size : Nat
deriving DecidableEq, Repr, Inhabited

/-- An edit of a line or offset that the table does not have. -/
inductive LineError where
  | mergeOutOfRange (line count : Nat)
  | breakOutOfRange (offset size : Nat)
deriving DecidableEq, Repr

def LineError.message : LineError → String
  | .mergeOutOfRange line count => s!"cannot merge line {line}: file has {count} lines"
  | .breakOutOfRange offset size => s!"cannot break at offset {offset}: file size is {size}"

/-- Reading and editing the table. An edit that fails half way leaves what it has done so far. -/
abbrev Relining := EStateM LineError LineTable

/-- An edit of the table. -/
abbrev LineEdit := Relining Unit

namespace LineTable

/-- The offsets just behind each newline of a text that starts at `pos`. -/
def afterNewlines (pos : Nat) : List Char → List Nat
  | [] => []
  | c :: cs =>
    let next := pos + c.utf8Size
    if c = '\n' then next :: afterNewlines next cs else afterNewlines next cs

/-- A line starts at the beginning and behind every newline but one that ends the text. -/
def ofSource (src : String) : LineTable :=
  let size := src.utf8ByteSize
  ⟨0 :: (afterNewlines 0 src.toList).filter (· < size), size⟩

/-- Whether each element is below the next one. -/
def increasing : List Nat → Bool
  | a :: b :: rest => a < b && increasing (b :: rest)
  | _ => true

/-- The table with the given starts, if they begin with `0`, increase and stay within `size`. -/
def ofStarts? (starts : List Nat) (size : Nat) : Option LineTable :=
  if starts.head? == some 0 && increasing starts && starts.all (· ≤ size) then some ⟨starts, size⟩
  else none

def count (t : LineTable) : Nat := t.starts.length

/-- The line of an offset; lines are counted from one. -/
def line (t : LineTable) (offset : Nat) : Nat := (t.starts.takeWhile (· ≤ offset)).length

/-- The line on which a span's last byte stands. -/
def lastLine (t : LineTable) (s : Span) : Nat := t.line s.last

def lineStart? (t : LineTable) (line : Nat) : Option Nat :=
  if line = 0 then none else t.starts[line - 1]?

/-- Joins a line with the one after it. -/
def mergeLine (line : Nat) : LineEdit := do
  let t ← get
  if line = 0 || t.count ≤ line then throw (.mergeOutOfRange line t.count)
  set { t with starts := t.starts.eraseIdx line }

/-- Joins a line with the `times` lines after it. -/
def mergeLines (line : Nat) : (times : Nat) → LineEdit
  | 0 => pure ()
  | n + 1 => do
    mergeLine line
    mergeLines line n

/-- Joins the lines from `first` to `last` into one. -/
def removeLines (first last : Nat) : LineEdit := mergeLines first (last - first)

/-- Leaves one line break between the lines of two offsets. -/
def removeBetween (a b : Nat) : LineEdit := do
  let t ← get
  removeLines (t.line a + 1) (t.line b)

/-- A number put into its place in an increasing list, unless it is there already. -/
def insertStart (n : Nat) : List Nat → List Nat
  | [] => [n]
  | a :: rest =>
    if n < a then n :: a :: rest
    else if n = a then a :: rest
    else a :: insertStart n rest

/-- Starts a line at `offset`. -/
def insertBreak (offset : Nat) : LineEdit := do
  let t ← get
  if t.size < offset then throw (.breakOutOfRange offset t.size)
  set { t with starts := insertStart offset t.starts }

end LineTable

end GoLayout
