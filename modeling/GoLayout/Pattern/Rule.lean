import GoLayout.Grammar.File
import GoLayout.Pattern
import GoLayout.Text.Cut
import GoLayout.Text.Quoted
import GoLayout.Text.White
import GoLayout.Tree.Extent
import GoLayout.Tree.Traverse

/-!
Rules `pattern -> replacement`. A rule is applied to every expression of a file, innermost first;
what a replacement puts in is not matched again.
-/

namespace GoLayout

inductive RuleSide where
  | pattern | replacement
deriving DecidableEq, Repr

def RuleSide.text : RuleSide → String
  | .pattern => "pattern"
  | .replacement => "replacement"

/-- Why a text is no rule. -/
inductive RuleError where
  | malformed (text : String)
  | invalid (side : RuleSide) (failure : ParseFailure)
deriving DecidableEq, Repr

def RuleError.message : RuleError → String
  | .malformed text =>
    "rewrite rule must be of the form 'pattern -> replacement': " ++ Text.quoted text
  | .invalid side failure => s!"invalid rewrite {side.text}: {failure.message}"

/-- An expression with a text that is read as it. -/
structure Phrased where
  text : String
  expr : Expr
  reads : (Expr.parse text).map Prod.fst = .ok expr

structure Rule where
  pattern : Phrased
  replacement : Phrased

namespace Rule

def arrow : List Char := ['-', '>']

/-- The two sides of a rule, stripped of white space. Neither is empty, and there is one arrow. -/
def sides? (cs : List Char) : Option (List Char × List Char) := do
  let (left, right) ← Text.cut arrow cs
  let left := Text.strip left
  let right := Text.strip right
  guard (!left.isEmpty && !right.isEmpty && (Text.cut arrow right).isNone)
  return (left, right)

def readSide (side : RuleSide) (text : String) : Except RuleError Phrased :=
  match reads : (Expr.parse text).map Prod.fst with
  | .ok expr => .ok ⟨text, expr, reads⟩
  | .error failure => .error (.invalid side failure)

def parse (text : String) : Except RuleError Rule := do
  match sides? text.toList with
  | none => throw (.malformed text)
  | some (left, right) =>
    let pattern ← readSide .pattern (String.ofList left)
    let replacement ← readSide .replacement (String.ofList right)
    return ⟨pattern, replacement⟩

/-- The replacement, if the expression matches the pattern. All of it goes where the expression
starts. -/
def replace? (r : Rule) (e : Expr) : Option Expr :=
  (Pattern.match? r.pattern.expr e []).map fun bindings =>
    Pattern.subst r.replacement.expr bindings (some e.pos)

/-- Applies the rule on leaving an expression, and counts. -/
def visitor (r : Rule) : Visitor (StateM Nat) :=
  { Visitor.idle with
    expr := fun _ => pure fun e => do
      match r.replace? e with
      | some e => do
        modify (· + 1)
        return e
      | none => return e }

/-- The file with the rule applied everywhere, and how often it was. -/
def applyAll (r : Rule) (f : SourceFile) : SourceFile × Nat :=
  let (decls, count) := (Decl.visitAll r.visitor f.decls).run 0
  ({ f with decls }, count)

/-- Reads both sides of the rule once more, and applies it everywhere. -/
def rewrite (r : Rule) (f : SourceFile) : Except RuleError (SourceFile × Nat) := do
  let pattern ← readSide .pattern r.pattern.text
  let replacement ← readSide .replacement r.replacement.text
  return applyAll ⟨pattern, replacement⟩ f

end Rule

end GoLayout
