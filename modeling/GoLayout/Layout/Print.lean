import GoLayout.Comment
import GoLayout.Layout.Basic
import GoLayout.Layout.Sink

/-!
Printing a layout with a line table and comments, to any sink. A gap is settled when the next piece
is printed, so comments can come in between.
-/

namespace GoLayout

/-- What has been printed, and what the next piece depends on. -/
structure Printer (σ : Type) where
  out : σ
  /-- Whether anything has been printed. -/
  started : Bool
  /-- The comments not printed yet. -/
  pending : List Comment
  /-- The tabs at the start of the next line. -/
  indent : Int
  /-- The line on which the last piece with a place in the source ends. -/
  lastLine : Nat
  /-- Newlines due before the next piece. -/
  newlines : Nat
  /-- Whether a space is due before the next piece, if no newline is. -/
  space : Bool
  /-- Whether the last piece is a line comment, behind which a line must break. -/
  mustBreak : Bool

namespace Printer

variable {σ : Type}

def start (out : σ) (comments : List Comment) : Printer σ :=
  ⟨out, false, comments, 0, 0, 0, false, false⟩

/-- No more than one blank line is kept. -/
def maxNewlines : Nat := 2

/-- The newlines before something on `line` with the given separation. -/
def newlinesFor (p : Printer σ) (line : Nat) (sep : Sep) : Nat :=
  let forced := if p.mustBreak then 1 else 0
  match sep with
  | .breaks min _ =>
    let below := if p.started then line - p.lastLine else 0
    max (max (Nat.min below maxNewlines) min) forced
  | _ => forced

/-- Makes the separation of the next piece, which is on `line`, due. -/
def place (p : Printer σ) (line : Nat) (sep : Sep) : Printer σ :=
  let n := p.newlinesFor line sep
  let spaced := match sep with
    | .space | .breaks _ true => true
    | _ => false
  { p with
    newlines := max p.newlines n
    space := p.space || (n == 0 && spaced)
    mustBreak := false }

/-- The gap that is due. Before the first piece there is none. -/
def gap (p : Printer σ) : Gap :=
  if !p.started then .none
  else if 0 < p.newlines then .lines p.newlines p.indent.toNat
  else if p.space then .space
  else .none

variable [Sink σ]

def write (p : Printer σ) (text : String) (isComment : Bool) : Printer σ :=
  { p with
    out := Sink.put p.out ⟨p.gap, text, isComment⟩
    started := true
    newlines := 0
    space := false }

/-- Whether an offset is before a limit, if there is one. -/
def isBefore (pos : Nat) : Option Nat → Bool
  | some limit => pos < limit
  | none => true

/-- Prints one comment. The first comment on a later line takes over the line breaks of `sep`; the
separation left for what follows is returned too. -/
def comment (lines : LineTable) (p : Printer σ) (sep : Sep) (c : Comment) : Sep × Printer σ :=
  let line := lines.line c.span.start
  let below := p.started && p.lastLine < line
  let (own, sep) := match sep with
    | .breaks min space =>
      if below then (Sep.breaks min true, Sep.breaks (Nat.min min 1) space)
      else (Sep.lineOrSpace, sep)
    | _ => (Sep.lineOrSpace, sep)
  let p := (p.place line own).write c.text true
  (sep, { p with lastLine := lines.lastLine c.span, mustBreak := c.kind == CommentKind.line })

/-- Prints the comments before `limit`, of those given and pending. -/
def flush (lines : LineTable) (limit : Option Nat) :
    List Comment → Sep → Printer σ → Sep × Printer σ
  | [], sep, p => (sep, { p with pending := [] })
  | c :: cs, sep, p =>
    if isBefore c.span.start limit then
      let (sep, p) := p.comment lines sep c
      flush lines limit cs sep p
    else (sep, { p with pending := c :: cs })

def comments (lines : LineTable) (limit : Option Nat) (sep : Sep) (p : Printer σ) :
    Sep × Printer σ :=
  flush lines limit p.pending sep p

/-- The comments before `pos`, and the separation of what stands there. -/
def toPos (lines : LineTable) (pos : Nat) (sep : Sep) (p : Printer σ) : Printer σ :=
  let (sep, p) := p.comments lines (some pos) sep
  p.place (lines.line pos) sep

def token (lines : LineTable) (span : Span) (text : String) (sep : Sep) (p : Printer σ) :
    Printer σ :=
  let p := (p.toPos lines span.start sep).write text false
  { p with lastLine := lines.lastLine span }

def extra (text : String) (sep : Sep) (p : Printer σ) : Printer σ :=
  (p.place p.lastLine sep).write text false

/-- One level further to the left, but not further than the margin. -/
def outdented (p : Printer σ) : Printer σ := { p with indent := max (p.indent - 1) 0 }

def print (lines : LineTable) : Layout → Printer σ → Printer σ
  | .nil, p => p
  | .token span text sep, p => p.token lines span text sep
  | .extra text sep, p => p.extra text sep
  | .gap pos sep, p => p.toPos lines pos sep
  | .comments limit sep, p => (p.comments lines limit sep).2
  | .lastComma pos, p => if p.lastLine < lines.line pos then p.extra "," .glue else p
  | .append a b, p => print lines b (print lines a p)
  | .indent, p => { p with indent := p.indent + 1 }
  | .dedent, p => { p with indent := p.indent - 1 }
  | .outdent body, p => { print lines body p.outdented with indent := p.indent }

end Printer

namespace Layout

/-- Prints a layout with the given comments in it. -/
def emit {σ : Type} [Sink σ] (lines : LineTable) (comments : List Comment) (out : σ)
    (layout : Layout) : σ :=
  (Printer.print lines layout (.start out comments)).out

/-- The pieces that a layout prints as. -/
def pieces (lines : LineTable) (comments : List Comment) (layout : Layout) : List Piece :=
  (layout.emit lines comments ([] : List Piece)).reverse

end Layout

end GoLayout
