/-!
Sets of characters given by ranges of code points.
-/

namespace GoLayout.Text

/-- Inclusive ranges of code points. -/
abbrev Ranges := List (Nat × Nat)

def Ranges.holds (ranges : Ranges) (c : Char) : Bool :=
  ranges.any fun (lo, hi) => lo ≤ c.toNat && c.toNat ≤ hi

/-- Whether `c` is in a set given by a test on ASCII and by ranges above it. -/
def inClass (ascii : Char → Bool) (beyond : Ranges) (c : Char) : Bool :=
  if c.toNat < 0x80 then ascii c else beyond.holds c

end GoLayout.Text
