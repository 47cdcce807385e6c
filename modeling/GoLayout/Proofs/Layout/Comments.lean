import GoLayout.Proofs.Layout.Sink

/-!
Comments in print. Tokens are printed from many places and comments in between, wherever a token
behind them is reached; what is told here holds of every layout, whatever its tokens and places.
The comments that are printed are at all times the first ones of those given, each of them once,
and behind a line comment the next piece begins on a new line.
-/

namespace GoLayout

/-- A gap that ends the line of the piece before it. -/
def Gap.IsBreak (g : Gap) : Prop := ∃ count indent, g = .lines (count + 1) indent

theorem Gap.IsBreak.chars_eq {g : Gap} (h : g.IsBreak) : ∃ rest, g.chars = '\n' :: rest := by
  obtain ⟨count, indent, rfl⟩ := h
  exact ⟨List.replicate count '\n' ++ List.replicate indent '\t', rfl⟩

/-- What the comments among pieces say. -/
def Piece.commentTexts (pieces : List Piece) : List String :=
  (pieces.filter (·.isComment)).map (·.text)

theorem Piece.commentTexts_reverse (pieces : List Piece) :
    Piece.commentTexts pieces.reverse = (Piece.commentTexts pieces).reverse := by
  simp [Piece.commentTexts]

namespace Printer

/-- Pieces that print the given comments, the latest first in both lists. `behindLine` tells
whether the latest piece is a line comment; what is printed next then begins on a new line. -/
inductive Sets : List Piece → List Comment → (behindLine : Bool) → Prop where
  | start : Sets [] [] false
  | token {pieces : List Piece} {comments : List Comment} {behindLine : Bool} {gap : Gap}
      (text : String) (before : Sets pieces comments behindLine)
      (breaks : behindLine → gap.IsBreak) : Sets (⟨gap, text, false⟩ :: pieces) comments false
  | comment {pieces : List Piece} {comments : List Comment} {behindLine : Bool} {gap : Gap}
      (c : Comment) (before : Sets pieces comments behindLine)
      (breaks : behindLine → gap.IsBreak) :
      Sets (⟨gap, c.text, true⟩ :: pieces) (c :: comments) (c.kind == .line)

namespace Sets

variable {pieces : List Piece} {comments : List Comment} {behindLine : Bool}

theorem ne_nil (h : Sets pieces comments true) : pieces ≠ [] := by
  rintro rfl
  nomatch h

theorem commentTexts_eq (h : Sets pieces comments behindLine) :
    Piece.commentTexts pieces = comments.map (·.text) := by
  induction h with
  | start => rfl
  | token text before breaks ih => exact ih
  | comment c before breaks ih => exact congrArg (c.text :: ·) ih

/-- The piece of each comment, with the pieces printed after it and before it. -/
theorem exists_piece {later earlier : List Comment} {c : Comment}
    (h : Sets pieces (later ++ c :: earlier) behindLine) :
    ∃ back gap front,
      pieces = back ++ ⟨gap, c.text, true⟩ :: front ∧
      Piece.commentTexts back = later.map (·.text) ∧
      Piece.commentTexts front = earlier.map (·.text) ∧
      (c.kind = .line → (back = [] → behindLine) ∧ ∀ q ∈ back.getLast?, q.gap.IsBreak) := by
  generalize all : later ++ c :: earlier = comments at h
  -- The comment's own piece is the latest, or one that is found among the pieces before; in the
  -- second case the latest piece is the one behind the comment only if there is no other.
  have further {back : List Piece} {q : Piece} {b : Bool} (breaks : b → q.gap.IsBreak)
      (found : (back = [] → b) ∧ ∀ q ∈ back.getLast?, q.gap.IsBreak) :
      ∀ q' ∈ (q :: back).getLast?, q'.gap.IsBreak := by
    intro q' last
    cases back with
    | nil =>
      obtain rfl : q = q' := by simpa using last
      exact breaks (found.1 rfl)
    | cons r back => exact found.2 q' (by simpa using last)
  induction h generalizing later with
  | start => simp at all
  | token text before breaks ih =>
    obtain ⟨back, gap, front, rfl, texts, texts', behind⟩ := ih all
    refine ⟨⟨_, text, false⟩ :: back, gap, front, rfl, texts, texts', fun line => ⟨nofun, ?_⟩⟩
    exact further breaks (behind line)
  | comment c' before breaks ih =>
    cases later with
    | nil =>
      obtain ⟨rfl, rfl⟩ := List.cons.inj all
      refine ⟨[], _, _, rfl, rfl, before.commentTexts_eq, fun line => ⟨fun _ => ?_, nofun⟩⟩
      simp [line]
    | cons d later =>
      obtain ⟨rfl, others⟩ := List.cons.inj all
      obtain ⟨back, gap, front, rfl, texts, texts', behind⟩ := ih others
      refine ⟨⟨_, d.text, true⟩ :: back, gap, front, rfl, congrArg (d.text :: ·) texts, texts',
        fun line => ⟨nofun, ?_⟩⟩
      exact further breaks (behind line)

end Sets

/-! ### Printing step by step -/

variable {lines : LineTable} {p : Printer (List Piece)} {printed all : List Comment}
  {behindLine : Bool}

/-- A printer that has set comments, and that owes a line break if the last of them asks for it. -/
structure HasSet (p : Printer (List Piece)) (printed : List Comment) (behindLine : Bool) :
    Prop where
  traced : p.IsTraced
  sets : Sets p.out printed behindLine
  owes : behindLine → p.mustBreak ∨ 0 < p.newlines

/-- A printer that is about to write: a line break it owes is due. -/
structure IsReady (p : Printer (List Piece)) (printed : List Comment) (behindLine : Bool) :
    Prop where
  traced : p.IsTraced
  sets : Sets p.out printed behindLine
  due : behindLine → 0 < p.newlines

theorem newlinesFor_pos {line : Nat} {sep : Sep} (h : p.mustBreak) :
    0 < p.newlinesFor line sep := by
  cases sep with
  | glue | space => simp [newlinesFor, h]
  | breaks min space =>
    simp only [newlinesFor, h, if_true]
    omega

theorem HasSet.place (h : p.HasSet printed behindLine) (line : Nat) (sep : Sep) :
    (p.place line sep).IsReady printed behindLine := by
  refine ⟨h.traced, h.sets, fun behind => ?_⟩
  change 0 < max p.newlines (p.newlinesFor line sep)
  rcases h.owes behind with must | due
  · have forced : 0 < p.newlinesFor line sep := newlinesFor_pos must
    omega
  · omega

theorem IsReady.isBreak_gap (h : p.IsReady printed behindLine) :
    behindLine → p.gap.IsBreak := by
  rintro rfl
  have due : 0 < p.newlines := h.due rfl
  have started : p.started := by
    rw [h.traced]
    simpa using h.sets.ne_nil
  refine ⟨p.newlines - 1, p.indent.toNat, ?_⟩
  rw [Printer.gap, Nat.sub_add_cancel due]
  simp [started, due]

theorem IsReady.write (h : p.IsReady printed behindLine) (text : String) :
    (p.write text false).HasSet printed false :=
  ⟨rfl, .token text h.sets h.isBreak_gap, nofun⟩

theorem HasSet.comment (h : p.HasSet printed behindLine) (sep : Sep) (c : Comment) :
    (p.comment lines sep c).2.HasSet (c :: printed) (c.kind == .line) :=
  ⟨rfl, .comment c (h.place _ _).sets (h.place _ _).isBreak_gap, .inl⟩

/-- The comments printed so far and those pending are all there are, in this order. -/
def Accounts (all : List Comment) (p : Printer (List Piece)) : Prop :=
  ∃ printed behindLine, p.HasSet printed behindLine ∧ printed.reverse ++ p.pending = all

theorem accounts_flush {limit : Option Nat} {cs : List Comment} {sep : Sep}
    (h : p.HasSet printed behindLine) (total : printed.reverse ++ cs = all) :
    (flush lines limit cs sep p).2.Accounts all := by
  induction cs generalizing sep p printed behindLine with
  | nil => exact ⟨printed, behindLine, ⟨h.traced, h.sets, h.owes⟩, total⟩
  | cons c cs ih =>
    unfold flush
    split
    · exact ih (h.comment sep c) (by simpa using total)
    · exact ⟨printed, behindLine, ⟨h.traced, h.sets, h.owes⟩, total⟩

theorem Accounts.comments (h : p.Accounts all) (limit : Option Nat) (sep : Sep) :
    (p.comments lines limit sep).2.Accounts all := by
  obtain ⟨printed, behindLine, set, total⟩ := h
  exact accounts_flush set total

/-- A token is written where a separation was placed for it. -/
theorem Accounts.place_write (h : p.Accounts all) (line : Nat) (sep : Sep) (text : String) :
    ((p.place line sep).write text false).Accounts all := by
  obtain ⟨printed, behindLine, set, total⟩ := h
  exact ⟨printed, false, (set.place line sep).write text, total⟩

theorem Accounts.place (h : p.Accounts all) (line : Nat) (sep : Sep) :
    (p.place line sep).Accounts all := by
  obtain ⟨printed, behindLine, set, total⟩ := h
  have ready : (p.place line sep).IsReady printed behindLine := set.place line sep
  exact ⟨printed, behindLine,
    ⟨ready.traced, ready.sets, fun behind => .inr (ready.due behind)⟩, total⟩

theorem Accounts.withLastLine (h : p.Accounts all) (lastLine : Nat) :
    { p with lastLine }.Accounts all := by
  obtain ⟨printed, behindLine, set, total⟩ := h
  exact ⟨printed, behindLine, ⟨set.traced, set.sets, set.owes⟩, total⟩

theorem Accounts.withIndent (h : p.Accounts all) (indent : Int) :
    { p with indent }.Accounts all := by
  obtain ⟨printed, behindLine, set, total⟩ := h
  exact ⟨printed, behindLine, ⟨set.traced, set.sets, set.owes⟩, total⟩

/-- No layout loses a comment, or prints one out of turn. -/
theorem Accounts.print (l : Layout) (h : p.Accounts all) :
    (Printer.print lines l p).Accounts all := by
  induction l generalizing p with
  | nil => exact h
  | token span text sep =>
    exact ((h.comments (some span.start) sep).place_write _ _ text).withLastLine _
  | extra text sep => exact h.place_write _ sep text
  | gap pos sep => exact (h.comments (some pos) sep).place _ _
  | comments limit sep => exact h.comments limit sep
  | lastComma pos =>
    unfold Printer.print
    split
    · exact h.place_write _ _ _
    · exact h
  | append a b iha ihb => exact ihb (iha h)
  | indent | dedent => exact h.withIndent _
  | outdent body ih => exact (ih (h.withIndent _)).withIndent _

theorem pending_flush_none (cs : List Comment) (sep : Sep) (p : Printer (List Piece)) :
    (flush lines none cs sep p).2.pending = [] := by
  induction cs generalizing sep p with
  | nil => rfl
  | cons c cs ih => exact ih _ _

end Printer

/-- A layout that ends with all comments that are left prints every comment. -/
theorem Layout.sets_pieces (lines : LineTable) (comments : List Comment) (l : Layout) (sep : Sep) :
    ∃ behindLine, Printer.Sets ((l ++ Layout.comments none sep).pieces lines comments).reverse
      comments.reverse behindLine := by
  have start : (Printer.start ([] : List Piece) comments).Accounts comments :=
    ⟨[], false, ⟨rfl, .start, nofun⟩, rfl⟩
  have accounted : (Printer.print lines (l ++ Layout.comments none sep)
      (.start [] comments)).Accounts comments := start.print _
  have pending : (Printer.print lines (l ++ Layout.comments none sep)
      (.start ([] : List Piece) comments)).pending = [] := Printer.pending_flush_none _ _ _
  obtain ⟨printed, behindLine, set, total⟩ := accounted
  rw [pending, List.append_nil] at total
  obtain rfl : printed = comments.reverse := by rw [← total, List.reverse_reverse]
  refine ⟨behindLine, ?_⟩
  rw [Layout.pieces, List.reverse_reverse]
  exact set.sets

namespace SourceFile

/-- Printing keeps comments. Every comment of a file stands in its print once, between the texts of
the comments before it and those behind it, and a newline follows the text of a line comment. -/
theorem print_keeps_comments (f : SourceFile) :
    Piece.commentTexts f.pieces = f.allComments.map (·.text) ∧
    ∀ before c after, f.allComments = before ++ c :: after →
      ∃ front gap back rest,
        f.pieces = front ++ ⟨gap, c.text, true⟩ :: back ∧
        Piece.commentTexts front = before.map (·.text) ∧
        Piece.commentTexts back = after.map (·.text) ∧
        f.print.toList = Piece.join front ++ gap.chars ++ c.text.toList ++ rest ∧
        (c.kind = .line → ∃ more, rest = '\n' :: more) := by
  obtain ⟨behindLine, sets⟩ : ∃ behindLine,
      Printer.Sets f.pieces.reverse f.allComments.reverse behindLine :=
    Layout.sets_pieces f.lines f.allComments _ .line
  constructor
  · have texts := sets.commentTexts_eq
    rw [Piece.commentTexts_reverse, List.map_reverse] at texts
    exact List.reverse_inj.mp texts
  intro before c after total
  rw [total, List.reverse_append, List.reverse_cons, List.append_assoc,
    List.singleton_append] at sets
  obtain ⟨back, gap, front, parts, later, earlier, behind⟩ := sets.exists_piece
  have pieces : f.pieces = front.reverse ++ ⟨gap, c.text, true⟩ :: back.reverse := by
    rw [← List.reverse_reverse f.pieces, parts]
    simp
  refine ⟨front.reverse, gap, back.reverse, Piece.join back.reverse ++ ['\n'], pieces, ?_, ?_, ?_,
    fun line => ?_⟩
  · rw [Piece.commentTexts_reverse, earlier, ← List.map_reverse, List.reverse_reverse]
  · rw [Piece.commentTexts_reverse, later, ← List.map_reverse, List.reverse_reverse]
  · rw [toList_print, pieces]
    simp [Piece.join, Piece.chars]
  · -- The newline is that of the next piece, or the one that ends the file.
    cases next : back.reverse with
    | nil => exact ⟨[], rfl⟩
    | cons q more =>
      have isNext : back.getLast? = some q := by rw [← List.head?_reverse, next]; rfl
      obtain ⟨chars, broken⟩ := ((behind line).2 q isNext).chars_eq
      refine ⟨chars ++ q.text.toList ++ Piece.join more ++ ['\n'], ?_⟩
      simp [Piece.join, Piece.chars, broken]

/-- A line comment between a name and the declaration behind it. -/
theorem print_keeps_comments_of_line :
    let c : Comment := ⟨.line, ⟨10, 14⟩, "// c"⟩
    let d : Comment := ⟨.block, ⟨16, 21⟩, "/*d*/"⟩
    let f : SourceFile :=
      ⟨⟨0, 7⟩, ⟨"p", ⟨8, 9⟩⟩, none,
        [.gen ⟨none, ⟨22, 25⟩, .vars, some ⟨26, 27⟩, [], some ⟨27, 28⟩⟩],
        [⟨c, [d]⟩], ⟨[0, 15], 28⟩⟩
    f.allComments = [] ++ c :: [d] ∧
      ∃ front gap back rest,
        f.pieces = front ++ ⟨gap, c.text, true⟩ :: back ∧
        Piece.commentTexts front = ([] : List Comment).map (·.text) ∧
        Piece.commentTexts back = [d].map (·.text) ∧
        f.print.toList = Piece.join front ++ gap.chars ++ c.text.toList ++ rest ∧
        ∃ more, rest = '\n' :: more := by
  intro c d f
  obtain ⟨front, gap, back, rest, pieces, earlier, later, text, line⟩ :=
    (print_keeps_comments f).2 [] c [d] rfl
  exact ⟨rfl, front, gap, back, rest, pieces, earlier, later, text, line rfl⟩

end SourceFile

end GoLayout
