import GoLayout.Options
import GoLayout.Tree.Traverse

/-!
Range clauses without needless variables: `for k, _ = range x` becomes `for k = range x`, and
`for _ = range x` becomes `for range x`.
-/

namespace GoLayout

/-- Drops a blank value, and with `bare` also a blank key that no value follows. -/
def Stmt.dropBlanks (bare : Bool) : Stmt → Stmt
  | .range forPos key value op rangePos operand body =>
    let value := value.filter (!·.isBlank)
    if bare && key.any Expr.isBlank && value.isNone then
      .range forPos none none none rangePos operand body
    else .range forPos key value op rangePos operand body
  | s => s

/-- Drops the blank range variables at every statement. -/
def Visitor.blankDropper (bare : Bool) : Visitor Id :=
  { Visitor.idle with stmt := fun _ s => s.dropBlanks bare }

def SourceFile.simplify (opts : Options) (f : SourceFile) : SourceFile :=
  { f with decls := (Decl.visitAll (.blankDropper opts.allowsBareRange) f.decls).run }

end GoLayout
