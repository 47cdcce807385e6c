import GoLayout.Proofs.Grammar.File
import GoLayout.Proofs.Spacing.Element
import GoLayout.Proofs.Spacing.File

/-!
Spacing within lines. Whether a source can be read and how it prints depends on its elements
alone: on its tokens and comments, their order and the lines they start on. Blanks, and with them
all offsets, do not matter.
-/

namespace GoLayout

namespace Grammar.Input

variable {m : Moving} {lines' : LineTable} {input : Input}

/-- Reads a file from an input. -/
def readFile (input : Input) : Except ParseFailure SourceFile :=
  input.run (file · input.comments input.lines)

/-- The input with its tokens and comments moved, over another line table. -/
def move (m : Moving) (lines : LineTable) (input : Input) : Input :=
  ⟨input.cursor.move m, input.comments.map (·.map (Comment.move m)), lines⟩

/-- Where tokens keep their lines and their side of every comment, moving them changes nothing in
what is printed. -/
theorem print_move (keeps : m.KeepsLines input.lines lines')
    (order : ∀ g ∈ input.comments, ∀ c ∈ g.toList, m.KeepsOrder c) :
    (input.move m lines').readFile.toOption.map SourceFile.print =
      input.readFile.toOption.map SourceFile.print := by
  have read : (input.move m lines').readFile.toOption =
      input.readFile.toOption.map (SourceFile.move m lines') :=
    Input.run_move rfl fun g moved => file_moves moved input.comments input.lines lines'
  rw [read]
  cases run : input.readFile with
  | error e => rfl
  | ok f =>
    have sound : (readers input.cursor.rest.length).Sound fun _ => True :=
      readers_sound (fun _ _ => trivial) _
    obtain ⟨-, -, comments, lines⟩ := Input.of_run run (fun _ _ _ => trivial) (file_meets sound)
    have ordered : ∀ c ∈ f.allComments, m.KeepsOrder c := by
      intro c mem
      obtain ⟨g, inFile, inGroup⟩ := List.mem_flatMap.mp mem
      exact order g (comments ▸ inFile) c inGroup
    exact congrArg some (SourceFile.print_move (lines ▸ keeps) ordered)

end Grammar.Input

namespace Element

open Grammar

/-- The bytes in a line of the grid for a source: more than it has comments. -/
def width (es : List Element) : Nat := es.length + 1

/-- Moves a source onto its grid. -/
def moving (src : String) : Moving :=
  .onGrid (LineTable.ordered_ofSource src) (Scan.ofSource src).comments (width (ofSource src))

/-- The tokens that elements make on a grid, and the comment groups attached to them. -/
def attached (count : Nat) (es : List Element) : List Attached × List CommentGroup :=
  Attached.attach (LineTable.grid count (width es)) 0 0
    (tokensOnGrid (width es) 0 es ++ [⟨.eof, .point (count * width es)⟩])
    (commentsOnGrid (width es) 0 es)

/-- The input is what elements make on a grid of `count` lines. -/
structure Makes (count : Nat) (es : List Element) (input : Input) : Prop where
  tokens : input.tokens = (attached count es).1.map Attached.settle
  comments : input.comments = (attached count es).2
  lines : input.lines = LineTable.grid count (width es)

theorem Makes.unique {count : Nat} {es : List Element} {a b : Input} (ofA : Makes count es a)
    (ofB : Makes count es b) : a = b := by
  have tokens := ofA.tokens.trans ofB.tokens.symm
  have comments := ofA.comments.trans ofB.comments.symm
  have lines := ofA.lines.trans ofB.lines.symm
  obtain ⟨⟨current, rest⟩, _, _⟩ := a
  obtain ⟨⟨current', rest'⟩, _, _⟩ := b
  obtain ⟨rfl, rfl⟩ := List.cons.inj tokens
  cases comments
  cases lines
  rfl

section OneSource

variable {src : String} {count : Nat}

theorem comments_length_lt_width (src : String) :
    (Scan.ofSource src).comments.length < width (ofSource src) := by
  rw [width, ofSource, length_interleave]
  omega

theorem moving_keepsLines (enough : (LineTable.ofSource src).count ≤ count) :
    (moving src).KeepsLines (LineTable.ofSource src)
      (LineTable.grid count (width (ofSource src))) :=
  Moving.onGrid_keepsLines _ (comments_length_lt_width src) enough

theorem moving_keepsOrder : ∀ c ∈ (Scan.ofSource src).comments, (moving src).KeepsOrder c :=
  fun _ => Moving.onGrid_keepsOrder _

theorem onGrid_ofSource (faultless : (Scan.ofSource src).faults = []) :
    commentsOnGrid (width (ofSource src)) 0 (ofSource src) =
      (Scan.ofSource src).comments.map (Comment.move (moving src)) ∧
    tokensOnGrid (width (ofSource src)) 0 (ofSource src) =
      (Scan.ofSource src).tokens.map (Token.move (moving src)) := by
  have valid := (Scan.faults_eq_nil_iff src).mp faultless
  have held : ∀ t ∈ (Scan.ofSource src).tokens, t.kind.isSolid →
      t.span.Holds (LineTable.ofSource src) t.kind.spelling :=
    fun t mem solid => Scan.tokens_hold src t mem solid (valid t mem)
  have noneBefore : ∀ c ∈ ([] : List Comment), ∀ t ∈ (Scan.ofSource src).tokens,
      c.span.start < t.span.start := nofun
  exact onGrid_interleave _ _ (Scan.comments_ascending src) (Scan.comments_hold src)
    (List.nil_append _).symm (Scan.tokens_ascending src) held noneBefore

/-- On the grid, the input of a source is what its elements make there. -/
theorem makes_ofSource (faultless : (Scan.ofSource src).faults = [])
    (enough : (LineTable.ofSource src).count ≤ count) {input : Input}
    (made : Attached.attach (LineTable.ofSource src) 0 0
      ((Scan.ofSource src).tokens ++ [⟨.eof, .point src.utf8ByteSize⟩])
      (Scan.ofSource src).comments = (input.tokens, input.comments)) :
    Makes count (ofSource src)
      (input.move (moving src) (LineTable.grid count (width (ofSource src)))) := by
  have behindMoved : Attached.EndsBehind
      ((Scan.ofSource src).comments.map (Comment.move (moving src)))
      ⟨.eof, .point (count * width (ofSource src))⟩ := by
    refine ⟨rfl, fun c mem => ?_⟩
    obtain ⟨c, -, rfl⟩ := List.mem_map.mp mem
    exact Moving.onGrid_start_lt (LineTable.ordered_ofSource src) (comments_length_lt_width src)
      enough c.span.start
  obtain ⟨tokens, comments⟩ := Attached.attach_move (moving_keepsLines enough) moving_keepsOrder
    (Scan.comments_endsBehind src) behindMoved 0 0 (Scan.tokens_ne_eof src)
  obtain ⟨onGrid, onGrid'⟩ := onGrid_ofSource faultless
  rw [← onGrid, ← onGrid', made] at tokens comments
  exact ⟨tokens.symm, comments.symm, rfl⟩

/-- A source without lexical faults prints as its elements do on a grid with enough lines. -/
theorem print_ofSource (faultless : (Scan.ofSource src).faults = [])
    (enough : (LineTable.ofSource src).count ≤ count) :
    ∃ onGrid, Makes count (ofSource src) onGrid ∧
      (SourceFile.parse src).toOption.map SourceFile.print =
        onGrid.readFile.toOption.map SourceFile.print := by
  obtain ⟨input, read⟩ := (Input.exists_ofSource_iff src).mpr faultless
  obtain ⟨-, lines, made⟩ := Input.of_ofSource read
  have order : ∀ g ∈ input.comments, ∀ c ∈ g.toList, (moving src).KeepsOrder c := by
    intro g mem c inGroup
    rw [show input.comments = _ from (congrArg Prod.snd made).symm] at mem
    exact moving_keepsOrder c (Attached.mem_of_mem_attach g mem c inGroup)
  have printed := Input.print_move (lines ▸ moving_keepsLines enough) order
  refine ⟨_, makes_ofSource faultless enough made, ?_⟩
  rw [printed]
  change (Input.ofSource src >>= Input.readFile).toOption.map _ = _
  rw [read]
  rfl

end OneSource

theorem faults_eq_nil_iff (src : String) :
    (Scan.ofSource src).faults = [] ↔ .invalid ∉ (ofSource src).filterMap kind? := by
  rw [Scan.faults_eq_nil_iff, ofSource, filterMap_interleave, List.mem_map]
  constructor
  · rintro valid ⟨t, mem, isInvalid⟩
    exact valid t mem isInvalid
  · intro valid t mem isInvalid
    exact valid ⟨t, mem, isInvalid⟩

end Element

theorem SourceFile.toOption_parse_of_faulty {src : String}
    (faulty : (Scan.ofSource src).faults ≠ []) : (parse src).toOption = none := by
  cases read : parse src with
  | error e => rfl
  | ok f =>
    obtain ⟨input, made, -⟩ := exists_of_bind_eq_ok read
    exact absurd ((Grammar.Input.exists_ofSource_iff src).mp ⟨input, made⟩) faulty

/-- Sources with the same elements can be read both or neither, and they print alike. -/
theorem SourceFile.print_of_sameElements {src src' : String}
    (same : Element.ofSource src = Element.ofSource src') :
    (parse src).toOption.map print = (parse src').toOption.map print := by
  by_cases faultless : (Scan.ofSource src).faults = []
  · have faultless' : (Scan.ofSource src').faults = [] := by
      rw [Element.faults_eq_nil_iff, ← same, ← Element.faults_eq_nil_iff]
      exact faultless
    -- Both fit on a grid with as many lines as the longer of them has.
    obtain ⟨onGrid, makes, printed⟩ := Element.print_ofSource faultless (Nat.le_max_left _ _)
    obtain ⟨onGrid', makes', printed'⟩ := Element.print_ofSource faultless' (Nat.le_max_right _ _)
    rw [← same] at makes'
    rw [printed, printed', makes.unique makes']
  · have faulty' : (Scan.ofSource src').faults ≠ [] := by
      rw [Ne, Element.faults_eq_nil_iff, ← same, ← Element.faults_eq_nil_iff]
      exact faultless
    rw [toOption_parse_of_faulty faultless, toOption_parse_of_faulty faulty']

/-- Blanks within the lines, and blank lines at the end, leave no trace. -/
theorem SourceFile.print_of_two_spacings :
    Element.ofSource "package p\n\nvar s,t=\x60a\nb\x60 ,1/* c\nd */\n" =
      Element.ofSource "package  p  \n \nvar s  , t = \x60a\nb\x60, 1  /* c\nd */\n\n" ∧
    (parse "package p\n\nvar s,t=\x60a\nb\x60 ,1/* c\nd */\n").toOption.map print =
      some "package p\n\nvar s, t = \x60a\nb\x60, 1 /* c\nd */\n" ∧
    (parse "package  p  \n \nvar s  , t = \x60a\nb\x60, 1  /* c\nd */\n\n").toOption.map print =
      some "package p\n\nvar s, t = \x60a\nb\x60, 1 /* c\nd */\n" := by
  have same : Element.ofSource "package p\n\nvar s,t=\x60a\nb\x60 ,1/* c\nd */\n" =
      Element.ofSource "package  p  \n \nvar s  , t = \x60a\nb\x60, 1  /* c\nd */\n\n" := by
    decide +kernel
  have printed : (parse "package p\n\nvar s,t=\x60a\nb\x60 ,1/* c\nd */\n").toOption.map print =
      some "package p\n\nvar s, t = \x60a\nb\x60, 1 /* c\nd */\n" := by
    decide +kernel
  exact ⟨same, printed, (print_of_sameElements same).symm.trans printed⟩

end GoLayout
