import GoLayout.Layout.Tree
import GoLayout.Pattern.Rule
import GoLayout.Simplify
import GoLayout.Tidy

/-!
Formatting: a source is read, a rule is applied to it, range clauses are simplified, the layout is
settled, and the result is printed.
-/

namespace GoLayout

inductive FormatError where
  | unreadable (failure : ParseFailure)
  | rule (error : RuleError)
  /-- An edit of lines that the file does not have. -/
  | lines (error : LineError)
deriving DecidableEq, Repr

def FormatError.message : FormatError → String
  | .unreadable failure => failure.message
  | .rule error => error.message
  | .lines error => s!"internal inconsistency: {error.message}"

/-- The file with the rule of the options applied, if they have one. -/
def SourceFile.applyRule (opts : Options) (f : SourceFile) : Except RuleError SourceFile :=
  match opts.rule with
  | some text => do
    let r ← Rule.parse text
    return (← r.rewrite f).1
  | none => return f

def format (src : String) (opts : Options) : Except FormatError String := do
  let f ← (SourceFile.parse src).mapError .unreadable
  let f ← (f.applyRule opts).mapError .rule
  let f := if opts.simplify then f.simplify opts else f
  match (SourceFile.tidy opts).run f with
  | .ok _ f => return f.print
  | .error e _ => throw (.lines e)

end GoLayout
