import GoLayout.Text.Printable

/-!
Quoted texts for messages: a text between double quotes, its special characters escaped.
-/

namespace GoLayout.Text

/-- The digits of a number in base sixteen, in lowercase. -/
def hex (n : Nat) : List Char := Nat.toDigits 16 n

/-- Tab, return, newline, NUL, the quote and the backslash have short escapes; what is not
printable is given by its code point. -/
def escape (c : Char) : List Char :=
  match c with
  | '\t' => ['\\', 't']
  | '\r' => ['\\', 'r']
  | '\n' => ['\\', 'n']
  | '\x00' => ['\\', '0']
  | '"' => ['\\', '"']
  | '\\' => ['\\', '\\']
  | c =>
    if isPrintable c then [c]
    else ['\\', 'u', '\x7b'] ++ hex c.toNat ++ ['\x7d']

def quoted (s : String) : String :=
  String.ofList ('"' :: s.toList.flatMap escape ++ ['"'])

end GoLayout.Text
