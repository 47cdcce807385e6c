import GoLayout.Tidy.Blocks
import GoLayout.Tidy.Groups
import GoLayout.Tidy.Literals
import GoLayout.Tidy.Parameters
import GoLayout.Tree.Traverse

/-!
What is tidied at each node of a tree. On entering a node the line table is edited, with the node
as it was; on leaving it the node itself is changed.
-/

namespace GoLayout.Tidy

/-- Tidying of a tree: edits of the line table that know how many blocks they are in. -/
abbrev Tidying := StateT Nat Relining

variable (opts : Options) (comments : List CommentGroup)

def joinErrChecks (stmts : List Stmt) : LineEdit :=
  if opts.extra then Stmt.joinErrChecks stmts else pure ()

/-- Which fields of a list are to be merged. -/
def sharing (l : FieldList) : Relining (List Bool) := do
  let lines ← get
  return if opts.extra then l.sharing lines else []

/-- Which fields are to be merged, if there is a list. -/
def sharingOpt : Option FieldList → Relining (List Bool)
  | some l => sharing opts l
  | none => pure []

def onExpr : Visit Tidying Expr
  | .composite _ lbrace elements rbrace => do
    Expr.spread lbrace rbrace elements
    return pure
  | .literal lit => return fun _ => pure (.literal (lit.modernized opts))
  | _ => return pure

def onType : Visit Tidying TypeExpr
  | .interface _ elements => do
    let marks ← sharing opts elements
    return fun
      | .interface pos elements => pure (.interface pos (elements.mergeMarked marks))
      | t => pure t
  | _ => return pure

def onSig : Visit Tidying Signature := fun s => do
  let params ← sharing opts s.params
  let results ← sharingOpt opts s.results
  return fun s => pure ⟨s.params.mergeMarked params, s.results.map (·.mergeMarked results)⟩

def onBlock (role : BlockRole) : Visit Tidying Block := fun b => do
  joinErrChecks opts b.stmts
  b.trim comments (role == .body)
  modify (· + 1)
  return fun b => do
    modify (· - 1)
    return b

/-- A declaration of variables by values alone is written as an assignment. -/
def assignment : Stmt → Stmt
  | .decl ⟨_, _, .vars, _, [.valueSpec _ names none (some assign) (v :: vs) _], _⟩ =>
    let op := if names.all (·.text == "_") then .assign else .define
    .assign (names.map .ident) op assign (v :: vs)
  | s => s

def onStmt : Visit Tidying Stmt
  | .decl _ => return fun s => pure (assignment s)
  | .caseClause casePos values colon body => do
    joinErrChecks opts body
    (Stmt.caseClause casePos values colon body).joinHeader comments (← get)
    return pure
  | .commClause _ _ _ body => do
    joinErrChecks opts body
    return pure
  | _ => return pure

def onDecl : Visit Tidying GenDecl := fun d => do
  let flat ← d.flatten comments
  return fun d =>
    pure { d with kwPos := flat.kwPos, lparen := flat.lparen, rparen := flat.rparen }

def onFunc : Visit Tidying FuncDecl := fun f => do
  let receiver ← sharingOpt opts f.receiver
  let typeParams ← sharingOpt opts f.typeParams
  return fun f => pure { f with
    receiver := f.receiver.map (·.mergeMarked receiver)
    typeParams := f.typeParams.map (·.mergeMarked typeParams) }

def visitor : Visitor Tidying :=
  ⟨onExpr opts, onType opts, onSig opts, onBlock opts comments, onStmt opts comments,
    onDecl comments, onFunc opts⟩

/-- Tidies all nodes of a declaration. -/
def nodes (d : Decl) : Relining Decl := (d.visit (visitor opts comments)).run' 0

end GoLayout.Tidy
