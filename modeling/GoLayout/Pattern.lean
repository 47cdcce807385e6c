import GoLayout.Text.Lowercase
import GoLayout.Tree.Copy
import GoLayout.Tree.Unify

/-!
Patterns: expressions in which names of a single lowercase letter are wildcards. A wildcard
matches any expression, and where it occurs again, an expression like the first one.
-/

namespace GoLayout

namespace Pattern

/-- Whether a name is a wildcard. -/
def isWildcard (name : Ident) : Bool :=
  match name.text.toList with
  | [c] => Text.isLowercase c
  | _ => false

/-- A wildcard is bound by its first match, and later ones have to be like it. -/
def meet (name : String) (e : Expr) : Comparison := do
  let bindings ← get
  match bindings.lookup name with
  | some bound => Comparison.check (bound.alike e)
  | none => set (bindings ++ [(name, e)])

/-- Wildcards match; other names stand for themselves. -/
def wildcards : NameRule := fun name =>
  if isWildcard name then some (meet name.text) else none

/-- Matches an expression against a pattern, extending the bindings. -/
def match? (pattern e : Expr) (bindings : Bindings) : Option Bindings :=
  (pattern.unify wildcards e bindings).map (·.2)

/-- Whether an expression matches a pattern, with the bindings after it: extended by a match, and
left as they are where there is none. -/
def matchInPlace (pattern e : Expr) (bindings : Bindings) : Bool × Bindings :=
  match match? pattern e bindings with
  | some extended => (true, extended)
  | none => (false, bindings)

/-- The pattern with its bound wildcards replaced. With an offset, all tokens of the result go
there; without one they keep their places. -/
def subst (pattern : Expr) (bindings : Bindings) (pos : Option Nat) : Expr :=
  let place (s : Span) : Span := pos.elim s .point
  let fill (name : Ident) : Option Expr :=
    if isWildcard name then
      (bindings.lookup name.text).map (·.copy ⟨place, fun _ => none⟩)
    else none
  pattern.copy ⟨place, fill⟩

end Pattern

end GoLayout
