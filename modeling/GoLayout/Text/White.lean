import GoLayout.Text.Ranges

/-!
White space: the characters with Unicode's property White_Space, and texts stripped of it.
-/

namespace GoLayout.Text

/-- White space above ASCII. -/
def whiteRanges : Ranges :=
  [(0x85, 0x85), (0xa0, 0xa0), (0x1680, 0x1680), (0x2000, 0x200a), (0x2028, 0x2029),
   (0x202f, 0x202f), (0x205f, 0x205f), (0x3000, 0x3000)]

def isWhite : Char → Bool :=
  inClass (fun c => c == ' ' || (0x09 ≤ c.toNat && c.toNat ≤ 0x0d)) whiteRanges

/-- The text without the white space at its two ends. -/
def strip (cs : List Char) : List Char :=
  ((cs.dropWhile isWhite).reverse.dropWhile isWhite).reverse

end GoLayout.Text
