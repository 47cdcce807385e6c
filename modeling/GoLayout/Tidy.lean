import GoLayout.Tidy.CommentSpacing
import GoLayout.Tidy.Nodes

/-!
Tidying: the rules that settle the layout of a file. First the declarations are grouped and
separated and the comments spaced, then the nodes of each declaration are tidied.
-/

namespace GoLayout

/-- An edit of a file. One that fails half way leaves what it has done so far. -/
abbrev FileEdit := EStateM LineError SourceFile

namespace Tidy

/-- An edit of the lines of a file. -/
def onLines {α : Type} (edit : Relining α) : FileEdit α := fun f =>
  match edit f.lines with
  | .ok a lines => .ok a { f with lines }
  | .error e lines => .error e { f with lines }

/-- Replaces the declarations behind `done`, one after the other, by what `step` makes of them.
Those not yet reached stay `now`. -/
def replace {α : Type} (now : α → Decl) (step : α → Relining Decl) :
    (done : List Decl) → List α → FileEdit Unit
  | _, [] => pure ()
  | done, a :: rest => do
    let d ← onLines (step a)
    modify fun f => { f with decls := done ++ d :: rest.map now }
    replace now step (done ++ [d]) rest

/-- Gathers the standard library in an import group. -/
def gatherImports (opts : Options) : Decl → Relining Decl
  | .gen d => do
    if d.isImportGroup then return .gen (← Imports.gather opts.modulePath d) else return .gen d
  | d => return d

def flatten (comments : List CommentGroup) : Decl → Relining Decl
  | .gen d => return .gen (← d.flatten comments)
  | d => return d

/-- A group that declarations were merged into has its imports gathered anew. -/
def finish (opts : Options) (comments : List CommentGroup) (m : Merged) : Relining Decl := do
  let d ← if m.grown then gatherImports opts m.decl else pure m.decl
  nodes opts comments d

end Tidy

open Tidy in
/-- Settles the layout of a file. -/
def SourceFile.tidy (opts : Options) : FileEdit Unit := do
  replace id (gatherImports opts) [] (← get).decls
  replace id (Tidy.flatten (← get).comments) [] (← get).decls
  let f ← get
  let merged := (Groups.merge f.comments f.lines f.decls).filter (!·.decl.isEmpty)
  let decls := merged.map (·.decl)
  set { f with decls }
  onLines (Groups.separate f.comments f.name.span.stop decls)
  let comments := f.comments.map (·.spaced)
  modify ({ · with comments })
  replace (·.decl) (finish opts comments) [] merged

end GoLayout
