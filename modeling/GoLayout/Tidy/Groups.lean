import GoLayout.Tidy.Imports

/-!
Declaration groups. Parentheses around a single spec are dropped, declarations on successive lines
become one group, and declarations that take several lines stand apart.
-/

namespace GoLayout

namespace GenDecl

/-- Drops the parentheses around a single spec: `var (\n x = 1\n)` becomes `var x = 1`. A group
of types or with a comment of its own keeps them. Comments before the spec end up above the
declaration. -/
def flatten (comments : List CommentGroup) (d : GenDecl) : Relining GenDecl := do
  match d.lparen, d.rparen, d.specs with
  | some _, some rparen, [spec] =>
    if d.kind == .types || d.doc.isSome then return d
    let lines ← get
    let kwLine := lines.line d.kwPos.start
    let kwPos ← match (CommentGroup.between comments d.kwPos.start spec.pos).head? with
      | none => do
        LineTable.removeLines kwLine (lines.line spec.pos)
        pure d.kwPos
      | some group => do
        LineTable.removeLines kwLine (lines.line group.start)
        pure (.point spec.pos)
    let lines ← get
    LineTable.removeLines (lines.line spec.stop) (lines.line rparen.start)
    return { d with kwPos, lparen := none, rparen := none }
  | _, _, _ => return d

/-- Whether neighbours of a declaration may be merged into it. -/
def isMergeable (d : GenDecl) : Bool := d.kind != .types && !d.importsC

end GenDecl

/-- Whether a declaration declares nothing. -/
def Decl.isEmpty : Decl → Bool
  | .gen d => d.specs.isEmpty
  | .func _ => false

/-- A declaration, and whether others were merged into it. -/
structure Merged where
  decl : Decl
  grown : Bool

namespace Groups

/-- A declaration that others may still be merged into. -/
structure Unclosed where
  head : GenDecl
  /-- Where the keyword of the last declaration in it stands. -/
  lastPos : Nat
  grown : Bool

def Unclosed.ofDecl (d : GenDecl) : Unclosed := ⟨d, d.kwPos.start, false⟩

def Unclosed.close (u : Unclosed) : Merged := ⟨.gen u.head, u.grown⟩

variable (comments : List CommentGroup) (lines : LineTable)

/-- Whether `next` goes into the group: it is of the same kind, has no parentheses, and starts no
later than on the line below. -/
def Unclosed.admits (u : Unclosed) (next : GenDecl) : Bool :=
  u.head.isMergeable && next.kind == u.head.kind && next.lparen.isNone && !next.importsC &&
    lines.line next.kwPos.start ≤ lines.line u.lastPos + 1

/-- The group with another declaration merged into it. A comment behind that one stays in the
group. -/
def Unclosed.absorb (u : Unclosed) (next : GenDecl) : Unclosed :=
  let rparen := match CommentGroup.inlineAt comments lines next.stop with
    | some c => some (.point c.span.stop)
    | none => u.head.rparen
  ⟨{ u.head with specs := u.head.specs ++ next.specs, rparen }, next.kwPos.start, true⟩

/-- Merges from the left, beginning with the group at hand. -/
def mergeFrom : Option Unclosed → List Decl → List Merged
  | u, [] => (u.map Unclosed.close).toList
  | u, .func f :: rest => (u.map Unclosed.close).toList ++ ⟨.func f, false⟩ :: mergeFrom none rest
  | none, .gen d :: rest => mergeFrom (some (.ofDecl d)) rest
  | some u, .gen d :: rest =>
    if u.admits lines d then mergeFrom (some (u.absorb comments lines d)) rest
    else u.close :: mergeFrom (some (.ofDecl d)) rest

/-- Declarations on successive lines become one group each. -/
def merge (decls : List Decl) : List Merged := mergeFrom comments lines none decls

/-- Puts a blank line between neighbours that both take several lines. The comments above a
declaration count as part of it. -/
def separateFrom : (lastStop : Nat) → (lastLong : Bool) → List Decl → LineEdit
  | _, _, [] => pure ()
  | lastStop, lastLong, d :: rest => do
    let lines ← get
    let pos := ((CommentGroup.between comments lastStop d.pos).head?.map (·.start)).getD d.pos
    let long : Bool := lines.line pos < lines.line d.stop
    if long && lastLong && lines.line lastStop + 1 == lines.line pos then
      LineTable.insertBreak lastStop
    separateFrom d.stop long rest

/-- Separates the declarations behind a package clause that ends at `stop`. -/
def separate (stop : Nat) (decls : List Decl) : LineEdit :=
  separateFrom comments stop false decls

end Groups

end GoLayout
