import GoLayout.Comment
import GoLayout.Text.Alphanumeric
import GoLayout.Text.White
import GoLayout.Text.Word

/-!
Spacing of line comments: `//text` becomes `// text` in groups of prose. A group with a block
comment, a directive or a line that looks like code stays as it is.
-/

namespace GoLayout

/-- Whether what follows the slashes is read by tools: a word and a colon, such as `go:`, or one
of a few words. -/
def Text.isDirective (cs : List Char) : Bool :=
  let word := cs.takeWhile Char.isLower
  (!word.isEmpty && (cs.drop word.length).head? == some ':') ||
    ["line", "export", "extern", "sys", "sysnb"].any fun w =>
      (w.toList.isPrefixOf? cs).any wordEnds

namespace Comment

/-- The text behind the two slashes. -/
def body? (c : Comment) : Option (List Char) := ['/', '/'].isPrefixOf? c.text.toList

def isProse (c : Comment) : Bool :=
  c.kind == .line && c.body?.any fun body =>
    !Text.isDirective body && body.head?.all fun c => Text.isAlphanumeric c || Text.isWhite c

/-- The comment with a space behind its slashes, where text follows them directly. -/
def spaced (c : Comment) : Comment :=
  match c.body? with
  | some (b :: body) =>
    if Text.isWhite b then c
    else { c with text := String.ofList ('/' :: '/' :: ' ' :: b :: body) }
  | _ => c

end Comment

def CommentGroup.spaced (g : CommentGroup) : CommentGroup :=
  if g.toList.all Comment.isProse then g.map Comment.spaced else g

end GoLayout
