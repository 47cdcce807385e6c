import GoLayout.LineTable

/-!
Comments and the groups they form. The groups of a file stand in source order; two questions are
asked of them: which groups start between two offsets, and which comment stands on the line of an
offset behind it.
-/

namespace GoLayout

inductive CommentKind where
  | line | block
deriving DecidableEq, Repr

/-- A comment with its delimiters. -/
structure Comment where
  kind : CommentKind
  span : Span
  text : String
deriving DecidableEq, Repr

/-- Neighbouring comments without a blank line or token between them. -/
structure CommentGroup where
  first : Comment
  rest : List Comment
deriving DecidableEq, Repr

/-- The index of a comment group in its file, where a node has one attached. -/
abbrev Link := Option Nat

namespace CommentGroup

def toList (g : CommentGroup) : List Comment := g.first :: g.rest

def start (g : CommentGroup) : Nat := g.first.span.start

def stop (g : CommentGroup) : Nat := (g.rest.getLast?.getD g.first).span.stop

def texts (g : CommentGroup) : List String := g.toList.map (·.text)

/-- The group with every comment changed by `f`. -/
def map (f : Comment → Comment) (g : CommentGroup) : CommentGroup := ⟨f g.first, g.rest.map f⟩

/-- The groups that start at `lo` or later, but before `hi`. -/
def between (groups : List CommentGroup) (lo hi : Nat) : List CommentGroup :=
  (groups.dropWhile (·.start < lo)).takeWhile (·.start < hi)

/-- Of the first group at or behind `pos`, the first comment on the line of `pos`. -/
def inlineAt (groups : List CommentGroup) (lines : LineTable) (pos : Nat) : Option Comment := do
  let g ← (groups.dropWhile (·.start < pos)).head?
  g.toList.find? fun c => lines.line c.span.start == lines.line pos

end CommentGroup

end GoLayout
