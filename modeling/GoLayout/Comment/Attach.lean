import GoLayout.Token.Scan

/-!
How comments attach to tokens. The comments in the gap before a token fall into groups. A first
group on the line of the token before the gap trails that token, unless the next one follows it on
its line; the last group leads the next token if it ends on the line above it.
-/

namespace GoLayout

/-- A token with the group that leads it, and the group that trails the token before it. -/
structure Attached extends Token where
  lead : Link
  trail : Link
deriving DecidableEq, Repr

namespace Attached

/-- The comments that continue a group which ends on `endLine`: each starts at most `slack` lines
below the end of the one before. Also the line on which the group then ends, and what is left. -/
def takeRun (lines : LineTable) (slack : Nat) :
    (endLine : Nat) → List Comment → List Comment × Nat × List Comment
  | endLine, [] => ([], endLine, [])
  | endLine, c :: cs =>
    if lines.line c.span.start ≤ endLine + slack then
      let (run, endLine, rest) := takeRun lines slack (lines.lastLine c.span) cs
      (c :: run, endLine, rest)
    else ([], endLine, c :: cs)

/-- The group that begins with `c`, the line on which it ends, and what is left. -/
def takeGroup (lines : LineTable) (slack : Nat) (c : Comment) (cs : List Comment) :
    CommentGroup × Nat × List Comment :=
  let (run, endLine, rest) := takeRun lines slack (lines.lastLine c.span) cs
  (⟨c, run⟩, endLine, rest)

/-- The groups of a run of comments, each with the line on which it ends. A blank line ends a
group. -/
def groups (lines : LineTable) : (fuel : Nat) → List Comment → List (CommentGroup × Nat)
  | 0, _ => []
  | _, [] => []
  | fuel + 1, c :: cs =>
    let (group, endLine, rest) := takeGroup lines 1 c cs
    (group, endLine) :: groups lines fuel rest

/-- The groups in a gap, and whether the first of them trails and the last of them leads. -/
structure Gap where
  groups : List CommentGroup
  trails : Bool
  leads : Bool

/-- Whether the last of the groups ends on the line above `nextLine`. -/
def leads (nextLine : Nat) (groups : List (CommentGroup × Nat)) : Bool :=
  groups.getLast?.any fun (_, endLine) => endLine + 1 == nextLine

/-- The gap with the given comments between a token on `prevLine` and the token `next`. -/
def gap (lines : LineTable) (prevLine : Nat) (next : Token) : List Comment → Gap
  | [] => ⟨[], false, false⟩
  | c :: cs =>
    let nextLine := lines.line next.span.start
    if lines.line c.span.start == prevLine then
      let (first, endLine, rest) := takeGroup lines 0 c cs
      let later := groups lines rest.length rest
      { groups := first :: later.map (·.1)
        trails := nextLine != endLine || next.kind == .mark .semi || next.kind == .eof
        leads := leads nextLine later }
    else
      let all := groups lines (c :: cs).length (c :: cs)
      { groups := all.map (·.1), trails := false, leads := leads nextLine all }

/-- Attaches comments to tokens; `prevLine` is the line of the token before them, and `index` the
number of groups before them. -/
def attach (lines : LineTable) :
    (prevLine index : Nat) → List Token → List Comment → List Attached × List CommentGroup
  | _, _, [], _ => ([], [])
  | prevLine, index, t :: ts, cs =>
    let (before, after) := cs.span (·.span.start < t.span.start)
    let gap := gap lines prevLine t before
    let next := index + gap.groups.length
    let (attached, groups) := attach lines (lines.line t.span.start) next ts after
    let here : Attached :=
      { t with
        lead := if gap.leads then some (next - 1) else none
        trail := if gap.trails then some index else none }
    (here :: attached, gap.groups ++ groups)

end Attached

end GoLayout
