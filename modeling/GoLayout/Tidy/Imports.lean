import GoLayout.Options
import GoLayout.Text.Cut
import GoLayout.Tree.Copy
import GoLayout.Tree.Extent

/-!
Import groups. The imports of the standard library are gathered in the first run of lines of a
group, with a blank line behind them; where one was moved, each run is sorted.
-/

namespace GoLayout

/-- The list with `a` before the first element that may follow it. -/
def insertBy {α : Type} (le : α → α → Bool) (a : α) : List α → List α
  | [] => [a]
  | b :: rest => if le a b then a :: b :: rest else b :: insertBy le a rest

/-- A stable sort. -/
def sortBy {α : Type} (le : α → α → Bool) : List α → List α
  | [] => []
  | a :: rest => insertBy le a (sortBy le rest)

/-- The text of a string literal without its quotes. -/
def Literal.unquoted (l : Literal) : String :=
  let cs := l.text.toList
  String.ofList ((Text.between? '"' cs <|> Text.between? '\x60' cs).getD cs)

namespace ImportSpec

/-- The name that the package goes by, if one is given. -/
def nameText (s : ImportSpec) : String :=
  match s.name with
  | some (.dot _) => "."
  | some (.name id) => id.text
  | none => ""

end ImportSpec

namespace Imports

/-- Whether a path is the module's own or one below it. -/
def isWithin (modulePath : String) (path : List Char) : Bool :=
  match modulePath.toList.isPrefixOf? path with
  | some rest => rest.isEmpty || rest.head? == some '/'
  | none => false

/-- Paths of the standard library have no dot in their first element and are not in the module at
hand. -/
def isStandard (modulePath : Option String) (path : String) : Bool :=
  let cs := path.toList
  !(cs.takeWhile (· != '/')).contains '.' && !modulePath.any (isWithin · cs)

/-! ### Sorting -/

/-- What imports are sorted by: their path, then their name. -/
def sortKey : Spec → String × String
  | .importSpec s => (s.path.unquoted, s.nameText)
  | _ => ("", "")

def keyLe (a b : String × String) : Bool :=
  a.1 < b.1 || (a.1 == b.1 && (a.2 < b.2 || a.2 == b.2))

def specLe (a b : Spec) : Bool := keyLe (sortKey a) (sortKey b)

/-- Drops a spec that repeats the one before it. -/
def dropRepeats : List Spec → List Spec
  | [] => []
  | s :: rest =>
    match dropRepeats rest with
    | t :: more => if sortKey s == sortKey t then s :: more else s :: t :: more
    | [] => [s]

/-- Puts each spec into the slot beside it. -/
def assign : List Spec → List Nat → List Spec
  | s :: specs, slot :: slots =>
    (if s.pos == slot then s else s.restamp slot) :: assign specs slots
  | _, _ => []

/-- A run of imports sorted, without repetitions. The places of the run are taken in order. -/
def sortRun (run : List Spec) : List Spec :=
  assign (dropRepeats (sortBy specLe run)) (sortBy (fun a b => decide (a ≤ b)) (run.map Spec.pos))

/-- Splits specs where blank lines stand between them. -/
def runs (lines : LineTable) : List Spec → List (List Spec)
  | [] => []
  | s :: rest =>
    match runs lines rest with
    | (next :: run) :: more =>
      if lines.line s.stop + 1 < lines.line next.pos then [s] :: (next :: run) :: more
      else (s :: next :: run) :: more
    | more => [s] :: more

def sortRuns (lines : LineTable) (specs : List Spec) : List Spec :=
  (runs lines specs).flatMap sortRun

/-! ### Gathering the standard library -/

/-- Imports sorted out so far. -/
structure Gathering where
  standard : List Spec
  other : List Spec
  /-- Whether the first run of lines still goes on. -/
  inFirst : Bool
  /-- The line of the last spec in the first run. -/
  lastLine : Nat
  /-- The last line that a spec of the standard library takes up where it stood. -/
  standardLine : Nat
  /-- Whether a spec was moved. -/
  moved : Bool

/-- Whether a spec shares its lines with neither the spec before it nor the token behind it. -/
def isAlone (lines : LineTable) (prev : Option Spec) (s : Spec) (next : Option Nat) : Bool :=
  prev.all (fun p => lines.line p.stop < lines.line s.pos) &&
    next.all (fun pos => lines.line s.stop < lines.line pos)

variable (modulePath : Option String)

/-- Sorts out one spec. One of the standard library behind the first run moves to `home`, unless
it has a name or a comment; its line goes with it. -/
def gatherSpec (home : Nat) (prev : Option Spec) (next : Option Nat) (s : Spec) (g : Gathering) :
    Relining Gathering := do
  match s with
  | .importSpec spec =>
    let lines ← get
    let line := lines.line s.pos
    let g := if prev.isSome && g.inFirst && g.lastLine + 1 < line then { g with inFirst := false }
      else { g with lastLine := line }
    if !isStandard modulePath spec.path.unquoted then
      return { g with inFirst := false, other := g.other ++ [s] }
    if g.inFirst then
      return { g with
        standard := g.standard ++ [s]
        standardLine := max g.standardLine (lines.line s.stop) }
    if spec.name.isSome || spec.comment.isSome then
      return { g with other := g.other ++ [s] }
    if isAlone lines prev s next then LineTable.mergeLine (line - 1)
    return { g with standard := g.standard ++ [s.restamp home], moved := true }
  | _ => return { g with other := g.other ++ [s] }

/-- Sorts out specs from the left; `close` is where the group ends. -/
def gatherSpecs (home : Nat) (close : Option Nat) :
    (prev : Option Spec) → List Spec → Gathering → Relining Gathering
  | _, [], g => pure g
  | prev, s :: rest, g => do
    let next := (rest.head?.map Spec.pos) <|> close
    gatherSpecs home close (some s) rest (← gatherSpec modulePath home prev next s g)

/-- Gathers the imports of the standard library of a group. -/
def gather (d : GenDecl) : Relining GenDecl := do
  let home := d.kwPos.start
  let start : Gathering := ⟨[], [], true, 0, (← get).line home, false⟩
  let g ← gatherSpecs modulePath home (d.rparen.map Span.start) none d.specs start
  match g.standard, g.other with
  | _ :: _, first :: _ =>
    if (← get).line first.pos ≤ g.standardLine + 1 then
      LineTable.insertBreak (first.pos - 1)
      LineTable.insertBreak first.pos
  | _, _ => pure ()
  let specs := g.standard ++ g.other
  let lines ← get
  return { d with specs := if g.moved then sortRuns lines specs else specs }

end Imports

namespace GenDecl

/-- Whether a declaration is an import group, with parentheses or without. -/
def isImportGroup (d : GenDecl) : Bool :=
  d.kind == .imports && (d.lparen.isSome || 1 < d.specs.length)

/-- Whether a declaration imports C. -/
def importsC (d : GenDecl) : Bool :=
  d.kind == .imports && d.specs.any fun
    | .importSpec s => s.path.unquoted == "C"
    | _ => false

end GenDecl

end GoLayout
