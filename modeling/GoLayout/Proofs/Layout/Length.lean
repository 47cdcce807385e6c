import GoLayout.Proofs.Layout.Sink

/-!
The length of a node is that of its printed text. A sink that joins the texts and one that counts
their bytes are printed to by the same printer and told the same, so the count is the size of the
text.
-/

namespace GoLayout

namespace Node

variable (lines : LineTable) (n : Node)

/-- Counting the bytes of a node is printing it and measuring the text. -/
theorem emit_bytes : n.emit lines (⟨0⟩ : ByteCounter) = ⟨(n.text lines).utf8ByteSize⟩ :=
  Layout.emit_map lines [] (f := fun s : String => (⟨s.utf8ByteSize⟩ : ByteCounter))
    (fun s q => (Emitter.length_foldl q.texts s).symm) "" (n.layout lines)

/-- The length of a node at a depth is the size of the text that it is printed as, and with it a
space and the comment that is found where the node ends, and eight bytes for each level of the
depth. Every emitter that the node is printed to is told the texts of its pieces one by one, one
that joins them as well as one that counts their bytes. -/
theorem length_measures_text (lines : LineTable) (comments : List CommentGroup) (n : Node)
    (depth : Nat) :
    (∀ {ε : Type} [Emitter ε] (out : ε),
      n.emit lines out = ((n.pieces lines).flatMap Piece.texts).foldl Emitter.emit out) ∧
      (n.text lines).toList = Piece.join (n.pieces lines) ∧
      n.emit lines (⟨0⟩ : ByteCounter) = ⟨(n.text lines).utf8ByteSize⟩ ∧
      n.length lines comments depth = (n.text lines).utf8ByteSize +
        ((CommentGroup.inlineAt comments lines n.stop).elim 0 fun c => 1 + c.text.utf8ByteSize) +
        8 * depth := by
  refine ⟨fun out => Layout.emit_eq_foldl_texts lines [] out (n.layout lines),
    n.toList_text lines, n.emit_bytes lines, ?_⟩
  rw [length, emit_bytes, Nat.mul_comm 8 depth]
  cases CommentGroup.inlineAt comments lines n.stop <;> rfl

end Node

end GoLayout
