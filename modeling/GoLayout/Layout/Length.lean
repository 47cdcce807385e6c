import GoLayout.Layout.Tree
import GoLayout.Tree.Node

/-!
The printed text of a single node, and its length in a line.
-/

namespace GoLayout

namespace Node

def layout (lines : LineTable) : Node → Layout
  | .decl d => d.layout lines
  | .func f => f.layout lines
  | .stmt s => s.layout lines
  | .expr e => e.layout lines
  | .type t => t.layout lines
  | .field f => f.layout lines
  | .sig s => s.layout lines

/-- Prints a node alone and without comments. -/
def emit {σ : Type} [Sink σ] (lines : LineTable) (out : σ) (n : Node) : σ :=
  (n.layout lines).emit lines [] out

def pieces (lines : LineTable) (n : Node) : List Piece := (n.layout lines).pieces lines []

def text (lines : LineTable) (n : Node) : String := n.emit lines ""

/-- The width that a level of indentation counts for. -/
def indentWidth : Nat := 8

/-- The length of a node at some depth: what is counted while it is printed, a space and the comment
that follows it on its last line, and the indentation. -/
def length (lines : LineTable) (comments : List CommentGroup) (n : Node) (depth : Nat) : Nat :=
  let comment := match CommentGroup.inlineAt comments lines n.stop with
    | some c => 1 + c.text.utf8ByteSize
    | none => 0
  let printed : ByteCounter := n.emit lines ⟨0⟩
  printed.length + comment + depth * indentWidth

end Node

end GoLayout
