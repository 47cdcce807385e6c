import GoLayout.Layout.Length

/-!
Lines in blocks and clauses: blank lines at the ends of a block, between a call and the check of
its error, and breaks in the header of a clause.
-/

namespace GoLayout

namespace Stmt

/-- Whether a statement defines `err`, last of its names. -/
def definesErr : Stmt → Bool
  | .assign lhs .define _ _ => lhs.getLast?.any (·.isName "err")
  | _ => false

/-- Whether a statement is a plain `if err != nil`. -/
def checksErr : Stmt → Bool
  | .ifElse _ none (.binary left .ne _ right) _ none => left.isName "err" && right.isName "nil"
  | _ => false

/-- Drops the blank lines before each check of an error that has just been defined. -/
def joinErrChecks : List Stmt → LineEdit
  | a :: b :: rest => do
    if a.definesErr && b.checksErr then LineTable.removeBetween a.stop b.pos
    joinErrChecks (b :: rest)
  | _ => pure ()

/-- The greatest length of a clause whose header is joined. -/
def shortLimit : Nat := 60

/-- Joins the header of a short clause that has no comment in it. -/
def joinHeader (comments : List CommentGroup) (depth : Nat) (s : Stmt) : LineEdit := do
  match s with
  | .caseClause casePos _ colon _ =>
    let lines ← get
    let first := lines.line casePos.start
    let last := lines.line colon.start
    if first != last && (CommentGroup.between comments casePos.start colon.start).isEmpty &&
        (Node.stmt s).length lines comments depth ≤ shortLimit then
      LineTable.removeLines first last
  | _ => pure ()

end Stmt

namespace Block

/-- From where to where the statements of a block reach. -/
def stmtsExtent? (b : Block) : Option (Nat × Nat) := do
  return ((← b.stmts.head?).pos, (← b.stmts.getLast?).stop)

/-- From where to where the comments in a block reach. -/
def commentsExtent? (comments : List CommentGroup) (b : Block) : Option (Nat × Nat) := do
  let groups := CommentGroup.between comments b.lbrace.start b.rbrace.start
  return ((← groups.head?).start, (← groups.getLast?).stop)

/-- From where to where the contents of a block reach. -/
def extent? (comments : List CommentGroup) (b : Block) : Option (Nat × Nat) :=
  match b.stmtsExtent?, b.commentsExtent? comments with
  | some (pos, stop), some (pos', stop') => some (min pos pos', max stop stop')
  | some e, none => some e
  | none, e => e

/-- An empty block keeps at most one line break. A block of one statement, and with `always` any
other, loses the blank lines at its two ends. -/
def trim (comments : List CommentGroup) (always : Bool) (b : Block) : LineEdit := do
  match b.extent? comments with
  | none => LineTable.removeBetween b.lbrace.start b.rbrace.start
  | some (pos, stop) =>
    if always || b.stmts.length ≤ 1 then
      LineTable.removeBetween b.lbrace.start pos
      LineTable.removeBetween stop b.rbrace.start

end Block

end GoLayout
