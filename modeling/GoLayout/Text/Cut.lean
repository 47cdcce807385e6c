/-!
Texts cut at a mark.
-/

namespace GoLayout.Text

/-- The stretches between the occurrences of `sep`; there is always at least one. -/
def splitAt (sep : Char) : List Char → List (List Char)
  | [] => [[]]
  | c :: cs =>
    if c = sep then [] :: splitAt sep cs
    else match splitAt sep cs with
      | [] => [[c]]
      | w :: ws => (c :: w) :: ws

/-- What stands before and after the first occurrence of `mark`. -/
def cut (mark : List Char) : List Char → Option (List Char × List Char)
  | [] => none
  | c :: cs =>
    match mark.isPrefixOf? (c :: cs) with
    | some after => some ([], after)
    | none => (cut mark cs).map fun (before, after) => (c :: before, after)

/-- The text between a `quote` at its start and another one at its end. -/
def between? (quote : Char) : List Char → Option (List Char)
  | c :: cs => if c = quote && cs.getLast? == some quote then some cs.dropLast else none
  | [] => none

end GoLayout.Text
