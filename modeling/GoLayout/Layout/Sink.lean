/-!
Where print goes. It is made of pieces, each a token or a comment with the gap before it: nothing, a
space, or newlines and indentation. An emitter is told texts, one behind the other: one that joins
them holds the printed text, and one that counts their bytes its length.
-/

namespace GoLayout

/-- What stands between two pieces. -/
inductive Gap where
  | none
  | space
  | lines (count indent : Nat)
deriving DecidableEq, Repr

namespace Gap

/-- The texts that a gap is emitted as. -/
def texts : Gap → List String
  | .none => []
  | .space => [" "]
  | .lines count indent => List.replicate count "\n" ++ List.replicate indent "\t"

def chars : Gap → List Char
  | .none => []
  | .space => [' ']
  | .lines count indent => List.replicate count '\n' ++ List.replicate indent '\t'

end Gap

/-- A token or a comment and the gap before it. -/
structure Piece where
  gap : Gap
  text : String
  isComment : Bool
deriving DecidableEq, Repr

namespace Piece

/-- The texts that a piece is emitted as. -/
def texts (p : Piece) : List String := p.gap.texts ++ [p.text]

def chars (p : Piece) : List Char := p.gap.chars ++ p.text.toList

/-- The printed text of pieces. -/
def join (pieces : List Piece) : List Char := pieces.flatMap chars

end Piece

/-- What takes in texts, one behind the other. -/
class Emitter (ε : Type) where
  emit : ε → String → ε

/-- Joins the texts. -/
instance : Emitter String := ⟨(· ++ ·)⟩

/-- A count of bytes. -/
structure ByteCounter where
  length : Nat

/-- Counts the bytes of the texts instead of storing them. -/
instance : Emitter ByteCounter := ⟨fun counter text => ⟨counter.length + text.utf8ByteSize⟩⟩

/-- What takes in pieces, one behind the other. -/
class Sink (σ : Type) where
  put : σ → Piece → σ

/-- An emitter takes in a piece text by text. -/
instance {ε : Type} [Emitter ε] : Sink ε := ⟨fun out p => p.texts.foldl Emitter.emit out⟩

/-- A trace of all that is printed, the latest piece first. -/
instance : Sink (List Piece) := ⟨fun pieces p => p :: pieces⟩

end GoLayout
