import GoLayout.Proofs.Spacing.Attach
import GoLayout.Proofs.Spacing.Grid
import GoLayout.Proofs.Token.Place

/-!
The elements of a source: its tokens and comments in the order in which they start, each with its
text and the line it starts on. Moved onto a grid, tokens and comments stand where the elements
alone tell: the offsets of the source are gone.
-/

namespace GoLayout

/-- A token or a comment, and the line it starts on. A semicolon that ends a line is an element as
one that is written. -/
inductive Element where
  | token (kind : TokenKind) (line : Nat)
  | comment (kind : CommentKind) (text : String) (line : Nat)
deriving DecidableEq, Repr

namespace Element

def ofToken (lines : LineTable) (t : Token) : Element := .token t.kind (lines.line t.span.start)

def ofComment (lines : LineTable) (c : Comment) : Element :=
  .comment c.kind c.text (lines.line c.span.start)

/-- Each token behind the comments that start before it. -/
def interleave (lines : LineTable) : List Token → List Comment → List Element
  | [], cs => cs.map (ofComment lines)
  | t :: ts, cs =>
    (cs.takeWhile (·.span.start < t.span.start)).map (ofComment lines) ++
      ofToken lines t :: interleave lines ts (cs.dropWhile (·.span.start < t.span.start))

/-- The elements of a source. -/
def ofSource (src : String) : List Element :=
  interleave (LineTable.ofSource src) (Scan.ofSource src).tokens (Scan.ofSource src).comments

/-- The kind of an element that is a token. -/
def kind? : Element → Option TokenKind
  | .token kind _ => some kind
  | .comment .. => none

theorem filterMap_interleave (lines : LineTable) (ts : List Token) (cs : List Comment) :
    (interleave lines ts cs).filterMap kind? = ts.map (·.kind) := by
  have noKind : ∀ cs : List Comment, (cs.map (ofComment lines)).filterMap kind? = [] := by
    intro cs
    rw [List.filterMap_map, List.filterMap_eq_nil_iff]
    exact fun c _ => rfl
  induction ts generalizing cs with
  | nil => exact noKind cs
  | cons t ts ih =>
    rw [interleave, List.filterMap_append, noKind, List.nil_append]
    exact congrArg (t.kind :: ·) (ih _)

theorem length_interleave (lines : LineTable) (ts : List Token) (cs : List Comment) :
    (interleave lines ts cs).length = ts.length + cs.length := by
  induction ts generalizing cs with
  | nil => simp [interleave]
  | cons t ts ih =>
    have parts : (cs.takeWhile (·.span.start < t.span.start)).length +
        (cs.dropWhile (·.span.start < t.span.start)).length = cs.length := by
      rw [← List.length_append, List.takeWhile_append_dropWhile]
    simp only [interleave, List.length_append, List.length_map, List.length_cons, ih]
    omega

/-! ### Elements on a grid -/

/-- Where a text stands that starts on a line of the grid, behind so many comments. -/
def spanOnGrid (width before line : Nat) (text : String) : Span :=
  ⟨(line - 1) * width + before, 1 + (line + breaksIn text - 1) * width⟩

/-- The tokens of some elements behind so many comments. -/
def tokensOnGrid (width : Nat) : (before : Nat) → List Element → List Token
  | _, [] => []
  | before, .token kind line :: es =>
    let span := spanOnGrid width before line kind.spelling
    ⟨kind, if kind.isSolid then span else ⟨span.start, 0⟩⟩ :: tokensOnGrid width before es
  | before, .comment .. :: es => tokensOnGrid width (before + 1) es

/-- The comments of some elements behind so many others. -/
def commentsOnGrid (width : Nat) : (before : Nat) → List Element → List Comment
  | _, [] => []
  | before, .token .. :: es => commentsOnGrid width before es
  | before, .comment kind text line :: es =>
    ⟨kind, spanOnGrid width before line text, text⟩ :: commentsOnGrid width (before + 1) es

end Element

/-! ### Where the grid puts them -/

/-- Every comment starts behind the start of the one before it. -/
def Comment.Ascending (cs : List Comment) : Prop :=
  cs.Pairwise fun c c' => c.span.start < c'.span.start

theorem Comment.countBefore_eq_length {before rest : List Comment} {pos : Nat}
    (low : ∀ c ∈ before, c.span.start < pos) (high : ∀ c ∈ rest, pos ≤ c.span.start) :
    countBefore (before ++ rest) pos = before.length := by
  have none : rest.countP (·.span.start < pos) = 0 := by
    rw [List.countP_eq_zero]
    intro c mem
    simpa using high c mem
  rw [countBefore, List.countP_append, none, Nat.add_zero, List.countP_eq_length]
  intro c mem
  simpa using low c mem

/-- Where comments ascend, those that do not start before an offset come last. -/
theorem Comment.Ascending.le_of_mem_dropWhile {cs : List Comment} (ascending : Ascending cs)
    (pos : Nat) : ∀ c ∈ cs.dropWhile (·.span.start < pos), pos ≤ c.span.start := by
  induction cs with
  | nil => simp
  | cons d ds ih =>
    obtain ⟨first, later⟩ := List.pairwise_cons.mp ascending
    rw [List.dropWhile_cons]
    split
    · exact ih later
    · rename_i behind
      have behind : pos ≤ d.span.start := by simpa using behind
      refine List.forall_mem_cons.mpr ⟨behind, ?_⟩
      exact fun c mem => behind.trans (Nat.le_of_lt (first c mem))

namespace Element

variable {lines : LineTable} (ordered : lines.Ordered) {comments : List Comment} (width : Nat)

theorem onGrid_span (comments : List Comment) {s : Span} {text : String}
    (holds : s.Holds lines text) :
    (Moving.onGrid ordered comments width).span s =
      spanOnGrid width (Comment.countBefore comments s.start) (lines.line s.start) text := by
  have nonempty : min s.stop 1 = 1 := Nat.min_eq_right holds.stop_pos
  change Span.mk _ (min s.stop 1 + (lines.line (s.stop - 1) - 1) * width) = _
  rw [nonempty, holds.lastLine]
  rfl

/-- The comments in one gap, where `done` come before it and `rest` behind it. -/
theorem onGrid_gap (ascending : Comment.Ascending comments)
    (held : ∀ c ∈ comments, c.span.Holds lines c.text) {done before rest : List Comment}
    (split : comments = done ++ (before ++ rest)) (es : List Element) :
    commentsOnGrid width done.length (before.map (ofComment lines) ++ es) =
      before.map (Comment.move (Moving.onGrid ordered comments width)) ++
        commentsOnGrid width (done ++ before).length es ∧
    tokensOnGrid width done.length (before.map (ofComment lines) ++ es) =
      tokensOnGrid width (done ++ before).length es := by
  induction before generalizing done with
  | nil => simp
  | cons c before ih =>
    obtain ⟨laterComments, laterTokens⟩ := @ih (done ++ [c]) (by simp [split])
    have place : Comment.countBefore comments c.span.start = done.length := by
      have sorted := split ▸ ascending
      obtain ⟨-, behind, low⟩ := List.pairwise_append.mp sorted
      obtain ⟨high, -⟩ := List.pairwise_cons.mp behind
      rw [split]
      refine Comment.countBefore_eq_length (fun d mem => low d mem c List.mem_cons_self) ?_
      exact List.forall_mem_cons.mpr ⟨Nat.le_refl _, fun d mem => Nat.le_of_lt (high d mem)⟩
    have moved : (Moving.onGrid ordered comments width).span c.span =
        spanOnGrid width done.length (lines.line c.span.start) c.text := by
      rw [← place]
      exact onGrid_span ordered width comments (held c (by simp [split]))
    simp only [List.append_assoc, List.singleton_append, List.length_append, List.length_cons,
      List.length_nil] at laterComments laterTokens ⊢
    constructor
    · simp only [List.map_cons, List.cons_append, ofComment, commentsOnGrid, Comment.move, moved]
      exact congrArg _ laterComments
    · exact laterTokens

/-- Moved onto the grid, tokens and comments stand where the elements tell. -/
theorem onGrid_interleave (ascending : Comment.Ascending comments)
    (held : ∀ c ∈ comments, c.span.Holds lines c.text) {done cs : List Comment}
    (split : comments = done ++ cs) {ts : List Token}
    (sorted : ts.Pairwise fun t t' => t.span.start ≤ t'.span.start)
    (heldTokens : ∀ t ∈ ts, t.kind.isSolid → t.span.Holds lines t.kind.spelling)
    (behind : ∀ c ∈ done, ∀ t ∈ ts, c.span.start < t.span.start) :
    commentsOnGrid width done.length (interleave lines ts cs) =
      cs.map (Comment.move (Moving.onGrid ordered comments width)) ∧
    tokensOnGrid width done.length (interleave lines ts cs) =
      ts.map (Token.move (Moving.onGrid ordered comments width)) := by
  induction ts generalizing done cs with
  | nil =>
    have parts : comments = done ++ (cs ++ []) := by rw [split, List.append_nil]
    have gap := onGrid_gap ordered width ascending held parts []
    simpa [interleave, commentsOnGrid, tokensOnGrid] using gap
  | cons t ts ih =>
    obtain ⟨first, later⟩ := List.pairwise_cons.mp sorted
    obtain ⟨here, heldLater⟩ := List.forall_mem_cons.mp heldTokens
    let before := cs.takeWhile (·.span.start < t.span.start)
    let rest := cs.dropWhile (·.span.start < t.span.start)
    have parts : comments = (done ++ before) ++ rest := by
      rw [split, List.append_assoc, List.takeWhile_append_dropWhile]
    have passed : ∀ c ∈ done ++ before, c.span.start < t.span.start := by
      intro c mem
      rcases List.mem_append.mp mem with mem | mem
      · exact behind c mem t List.mem_cons_self
      · simpa using List.mem_takeWhile_imp mem
    obtain ⟨gapComments, gapTokens⟩ := onGrid_gap ordered width ascending held
      (parts.trans (List.append_assoc ..)) (ofToken lines t :: interleave lines ts rest)
    obtain ⟨restComments, restTokens⟩ := ih parts later heldLater fun c mem u inside =>
      (passed c mem).trans_le (first u inside)
    have place : Comment.countBefore comments t.span.start = (done ++ before).length := by
      rw [parts]
      have sorted : Comment.Ascending (done ++ cs) := split ▸ ascending
      have ahead : Comment.Ascending cs := (List.pairwise_append.mp sorted).2.1
      exact Comment.countBefore_eq_length passed (ahead.le_of_mem_dropWhile t.span.start)
    constructor
    · rw [interleave, gapComments, ofToken, commentsOnGrid, restComments, ← List.map_append,
        List.takeWhile_append_dropWhile]
    · rw [interleave, gapTokens, ofToken, tokensOnGrid, restTokens, List.map_cons, ← place]
      refine congrArg (· :: _) ?_
      cases solid : t.kind.isSolid with
      | false => simp [Token.move, solid, spanOnGrid, Moving.onGrid]
      | true =>
        have moved := onGrid_span ordered width comments (here solid)
        simp [Token.move, solid, ← moved, Moving.span]

end Element

end GoLayout
