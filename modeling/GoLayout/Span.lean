/-!
Stretches of a source text, as byte offsets into its UTF-8 form. Offsets are unbounded here. Where
they are kept in 32 bits, files have to stay below 4 GiB, and what is proved here is meant for such
files.
-/

namespace GoLayout

/-- The bytes from `start` up to, not including, `stop`. -/
structure Span where
  start : Nat
  stop : Nat
deriving DecidableEq, Repr, Inhabited

namespace Span

/-- The empty span at an offset. -/
def point (pos : Nat) : Span := ⟨pos, pos⟩

/-- Offset of the last byte, or of the start when there is none. -/
def last (s : Span) : Nat := max (s.stop - 1) s.start

end Span

end GoLayout
