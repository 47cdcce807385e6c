import GoLayout.Span

/-!
Layouts: what is to be printed, in order. A layout names the tokens of a text and how each is set
off from what stands before it; where lines break, and which comments come in between, is left to
the line table and the comments it is printed with.
-/

namespace GoLayout

/-- What separates a token from the one before it. -/
inductive Sep where
  | glue
  | space
  /-- A line break if the token is on a later line, and at least `min` newlines in any case;
  without a break, a space or nothing. -/
  | breaks (min : Nat) (space : Bool)
deriving DecidableEq, Repr

namespace Sep

/-- A token on a line of its own. -/
abbrev line : Sep := .breaks 1 false

/-- A line break or a space, as in the source. -/
abbrev lineOrSpace : Sep := .breaks 0 true

/-- A line break or nothing, as in the source. -/
abbrev lineOrGlue : Sep := .breaks 0 false

end Sep

inductive Layout where
  | nil
  /-- A token with its place in the source. -/
  | token (span : Span) (text : String) (sep : Sep)
  /-- A token that the source need not have. -/
  | extra (text : String) (sep : Sep)
  /-- The comments before `pos`, and the separation of what is printed next, which stands there. -/
  | gap (pos : Nat) (sep : Sep)
  /-- The comments before `pos`, or all that are left. -/
  | comments (pos : Option Nat) (sep : Sep)
  /-- The comma that ends a list whose closing token, at `pos`, is on a later line. -/
  | lastComma (pos : Nat)
  | append (a b : Layout)
  /-- Raises the indentation of all that is printed next by one. -/
  | indent
  /-- Lowers it by one. -/
  | dedent
  /-- A body one level to the left, if there is one. Behind it the indentation is put back. -/
  | outdent (body : Layout)
deriving Repr

namespace Layout

instance : Append Layout := ⟨Layout.append⟩

def indentIf (asked : Bool) : Layout := if asked then indent else nil

def dedentIf (asked : Bool) : Layout := if asked then dedent else nil

def concat : List Layout → Layout
  | [] => nil
  | l :: ls => l ++ concat ls

/-- A token whose place may be missing. -/
def optional (span : Option Span) (text : String) (sep : Sep) : Layout :=
  match span with
  | some span => token span text sep
  | none => extra text sep

end Layout

end GoLayout
