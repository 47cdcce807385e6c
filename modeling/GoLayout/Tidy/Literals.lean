import GoLayout.Options
import GoLayout.Tree.Extent

/-!
Literals: line breaks in composite literals, and the spelling of octal numbers.
-/

namespace GoLayout

namespace Expr

def isComposite : Expr → Bool
  | .composite .. => true
  | _ => false

/-- The line that a list of elements ends on, and whether a line breaks before one of them. -/
def breaks (lines : LineTable) : (lastLine : Nat) → List Expr → Nat × Bool
  | lastLine, [] => (lastLine, false)
  | lastLine, e :: rest =>
    let (endLine, broken) := breaks lines (lines.line e.stop) rest
    (endLine, lastLine < lines.line e.pos || broken)

/-- Breaks the line between two elements, one of them composite. -/
def breakComposites : List Expr → LineEdit
  | a :: b :: rest => do
    let lines ← get
    if (a.isComposite || b.isComposite) && lines.line a.stop == lines.line b.pos then
      LineTable.insertBreak a.stop
    breakComposites (b :: rest)
  | _ => pure ()

/-- Lays out a literal that is broken at an element or at its closing brace. The first element
goes to a new line, composite elements to lines of their own, and so does the closing brace. -/
def spread (lbrace rbrace : Span) (elements : List Expr) : LineEdit := do
  match elements.head?, elements.getLast? with
  | some first, some last =>
    let lines ← get
    let openLine := lines.line lbrace.start
    let closeLine := lines.line rbrace.start
    let (endLine, broken) := breaks lines openLine elements
    if openLine != closeLine && (broken || endLine < closeLine) then
      if openLine == lines.line first.pos then LineTable.insertBreak (lbrace.start + 1)
      breakComposites elements
      let lines ← get
      if lines.line rbrace.start == lines.line last.stop then LineTable.insertBreak last.stop
  | _, _ => pure ()

end Expr

namespace Literal

/-- The digits behind the leading zero of an octal number in the old spelling. -/
def oldOctal? (cs : List Char) : Option (List Char) :=
  match cs with
  | '0' :: d :: rest =>
    if (d :: rest).all fun c => ('0' ≤ c && c ≤ '7') || c == '_' then some (d :: rest) else none
  | _ => none

/-- Spells an octal number `0o755`, which the language has from version 1.13 on. -/
def modernized (opts : Options) (l : Literal) : Literal :=
  if l.kind == .int && opts.langAtLeast 1 13 then
    match oldOctal? l.text.toList with
    | some digits => { l with text := String.ofList ('0' :: 'o' :: digits) }
    | none => l
  else l

end Literal

end GoLayout
