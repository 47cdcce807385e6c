import GoLayout.Text.Cut
import GoLayout.Text.Quoted
import GoLayout.Text.White

/-!
Language versions, such as `go1.21`, and how they are read.
-/

namespace GoLayout

structure Version where
  major : Nat
  minor : Nat
deriving DecidableEq, Repr

/-- A text that is no language version. -/
structure VersionError where
  text : String
deriving DecidableEq, Repr

def VersionError.message (e : VersionError) : String :=
  "invalid Go version " ++ Text.quoted e.text ++ ": expected a form like \"go1.21\""

namespace Version

/-- The value of a run of decimal digits; a run without digits has none. -/
def decimal? (cs : List Char) : Option Nat :=
  if cs.isEmpty || !cs.all Char.isDigit then none
  else some (cs.foldl (fun n c => 10 * n + (c.toNat - '0'.toNat)) 0)

/-- The greatest component of a version. -/
def maxComponent : Nat := 4294967295

/-- One component: decimal digits after an optional plus sign, of no greater value than the
greatest component. -/
def component? (cs : List Char) : Option Nat :=
  let digits := match cs with
    | '+' :: rest => rest
    | _ => cs
  (decimal? digits).filter (· ≤ maxComponent)

/-- The text without a leading `go` or `v`. -/
def bare (cs : List Char) : List Char :=
  match cs with
  | 'g' :: 'o' :: rest => rest
  | 'v' :: rest => rest
  | _ => cs

/-- One to three components. The minor version is zero when left out, and a patch level is read
and forgotten. -/
def ofComponents? : List (List Char) → Option Version
  | [major] => do return ⟨← component? major, 0⟩
  | [major, minor] => do return ⟨← component? major, ← component? minor⟩
  | [major, minor, patch] => do
    let v := ⟨← component? major, ← component? minor⟩
    let _ ← component? patch
    return v
  | _ => none

/-- Reads `go1.21`, `v1.21` and `1.21`, with an optional patch level. -/
def parse (text : String) : Except VersionError Version :=
  match ofComponents? (Text.splitAt '.' (bare (Text.strip text.toList))) with
  | some v => .ok v
  | none => .error ⟨text⟩

def text (v : Version) : String := s!"go{v.major}.{v.minor}"

def atLeast (v : Version) (major minor : Nat) : Bool :=
  major < v.major || (major == v.major && minor ≤ v.minor)

end Version

end GoLayout
