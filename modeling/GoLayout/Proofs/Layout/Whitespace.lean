import GoLayout.Proofs.Layout.Sink
import GoLayout.Proofs.Tree.Words

/-!
White space in print. Whatever a layout asks for, the gap before a piece is settled in one place,
from the newlines and the space that are due there. A layout that never asks for more than one
blank line gets gaps of three kinds only: nothing, a space, or an end of line with the indentation.
-/

namespace GoLayout

/-- White space without two blank lines in a row, without a space at the end of a line, and without
spaces next to tabs. -/
structure Text.IsClean (cs : List Char) : Prop where
  blankLines : ¬ ['\n', '\n', '\n'] <:+: cs
  lineEnds : ¬ [' ', '\n'] <:+: cs
  unmixed : ¬ (' ' ∈ cs ∧ '\t' ∈ cs)

namespace Gap

/-- Nothing, a space, or one or two newlines and tabs. -/
def IsCanonical : Gap → Prop
  | .none => True
  | .space => True
  | .lines count _ => 1 ≤ count ∧ count ≤ 2

theorem IsCanonical.isClean {g : Gap} (h : g.IsCanonical) : Text.IsClean g.chars := by
  cases g with
  | none =>
    constructor
    · decide
    · decide
    · simp [chars]
  | space =>
    constructor
    · decide
    · decide
    · simp [chars]
  | lines count indent =>
    obtain ⟨-, atMost⟩ : 1 ≤ count ∧ count ≤ 2 := h
    have noSpace : ' ' ∉ (Gap.lines count indent).chars := by simp [chars]
    constructor
    · intro three
      have counted := three.sublist.count_le '\n'
      simp only [chars, List.count_append, List.count_replicate] at counted
      simp at counted
      omega
    · intro trailing
      exact noSpace (trailing.subset (by simp))
    · intro both
      exact noSpace both.1

end Gap

/-- Whether a separation asks for one blank line at most. -/
def Sep.isModest : Sep → Bool
  | .glue | .space => true
  | .breaks min _ => min ≤ 2

/-- Texts of tokens: keywords, marks, and the words that `P` holds of. Braces without a place are
one text. -/
inductive IsSpelling (P : String → Prop) : String → Prop where
  | word {text : String} (h : P text) : IsSpelling P text
  | keyword (k : Keyword) : IsSpelling P k.spelling
  | mark (m : Mark) : IsSpelling P m.spelling
  | braces : IsSpelling P "\x7b\x7d"

/-- Layouts of tokens with such texts, between which no more than one blank line is asked for unless
`wide`, and which raise the indentation from one level to another without going below the level it
has when level zero is entered. -/
inductive Layout.Sober (P : String → Prop) (wide : Bool) : Layout → (before behind : Nat) → Prop where
  | nil {d : Nat} : Sober P wide .nil d d
  | token {span : Span} {text : String} {sep : Sep} {d : Nat} (spelled : IsSpelling P text)
      (modest : (sep.isModest || wide) = true) : Sober P wide (.token span text sep) d d
  | extra {text : String} {sep : Sep} {d : Nat} (spelled : IsSpelling P text)
      (modest : (sep.isModest || wide) = true) : Sober P wide (.extra text sep) d d
  | gap {pos : Nat} {sep : Sep} {d : Nat} (modest : (sep.isModest || wide) = true) :
      Sober P wide (.gap pos sep) d d
  | comments {limit : Option Nat} {sep : Sep} {d : Nat} (modest : (sep.isModest || wide) = true) :
      Sober P wide (.comments limit sep) d d
  | lastComma {pos d : Nat} : Sober P wide (.lastComma pos) d d
  | append {a b : Layout} {d e k : Nat} (left : Sober P wide a d e) (right : Sober P wide b e k) :
      Sober P wide (.append a b) d k
  | indent {d : Nat} : Sober P wide .indent d (d + 1)
  | dedent {d : Nat} : Sober P wide .dedent (d + 1) d
  | outdent {body : Layout} {d : Nat} (inner : Sober P wide body 0 0) :
      Sober P wide (.outdent body) d d

namespace Printer

variable {P : String → Prop} {lines : LineTable} {p : Printer (List Piece)} {sep : Sep}

/-! ### The gaps of a print -/

theorem newlinesFor_le (line : Nat) (modest : sep.isModest = true) :
    p.newlinesFor line sep ≤ 2 := by
  have forced : (if p.mustBreak then 1 else 0) ≤ 2 := by split <;> omega
  cases sep with
  | glue | space => exact forced
  | breaks min space =>
    have asked : min ≤ 2 := by simpa [Sep.isModest] using modest
    have kept (below : Nat) : Nat.min below maxNewlines ≤ 2 := Nat.min_le_right below 2
    exact Nat.max_le.mpr ⟨Nat.max_le.mpr ⟨kept _, asked⟩, forced⟩

/-- A printer that has set its gaps well: the first piece has none, all are canonical, and no more
than two newlines are due. The tokens among the pieces have such texts. -/
structure IsSober (P : String → Prop) (p : Printer (List Piece)) : Prop where
  traced : p.IsTraced
  newlines_le : p.newlines ≤ 2
  gaps : ∀ q ∈ p.out, q.gap.IsCanonical
  first : ∀ q ∈ p.out.getLast?, q.gap = .none
  texts : ∀ q ∈ p.out, q.isComment = false → IsSpelling P q.text

theorem isSober_start (comments : List Comment) : (start [] comments).IsSober P :=
  ⟨rfl, Nat.zero_le 2, List.forall_mem_nil _, nofun, List.forall_mem_nil _⟩

/-- Only what is written, and the newlines that are due, make a printer sober. -/
theorem IsSober.withFields (h : p.IsSober P) (pending : List Comment) (indent : Int)
    (lastLine : Nat) (mustBreak : Bool) :
    { p with pending, indent, lastLine, mustBreak }.IsSober P :=
  ⟨h.traced, h.newlines_le, h.gaps, h.first, h.texts⟩

theorem IsSober.place (h : p.IsSober P) (line : Nat) (modest : sep.isModest = true) :
    (p.place line sep).IsSober P := by
  have due : (p.place line sep).newlines ≤ 2 :=
    Nat.max_le.mpr ⟨h.newlines_le, newlinesFor_le line modest⟩
  exact ⟨h.traced, due, h.gaps, h.first, h.texts⟩

theorem IsSober.isCanonical_gap (h : p.IsSober P) : p.gap.IsCanonical := by
  unfold Printer.gap
  split
  · trivial
  split
  next due => exact ⟨due, h.newlines_le⟩
  split <;> trivial

theorem IsSober.write (h : p.IsSober P) {text : String} {isComment : Bool}
    (spelled : isComment = false → IsSpelling P text) :
    (p.write text isComment).IsSober P := by
  refine ⟨rfl, Nat.zero_le 2, ?_, ?_, ?_⟩
  · intro q mem
    rcases List.mem_cons.mp mem with rfl | mem
    · exact h.isCanonical_gap
    · exact h.gaps q mem
  · -- Before the first piece nothing is due; behind it the first one stays the same.
    intro q last
    cases out : p.out with
    | nil =>
      have only : (⟨p.gap, text, isComment⟩ : Piece) = q := by
        simpa [Printer.write, Sink.put, out] using last
      have fresh : p.started = false := by rw [h.traced, out]; rfl
      subst only
      simp [Printer.gap, fresh]
    | cons r rest =>
      apply h.first q
      simpa [Printer.write, Sink.put, out] using last
  · intro q mem token
    rcases List.mem_cons.mp mem with rfl | mem
    · exact spelled token
    · exact h.texts q mem token

/-- What a comment leaves of a separation asks for no more than the separation. -/
theorem IsSober.comment (h : p.IsSober P) (modest : sep.isModest = true) (c : Comment) :
    (p.comment lines sep c).1.isModest = true ∧
      (p.comment lines sep c).2.IsSober P := by
  have written (own : Sep) (fits : own.isModest = true) (mustBreak : Bool) :
      { (p.place (lines.line c.span.start) own).write c.text true with
        lastLine := lines.lastLine c.span, mustBreak }.IsSober P := by
    have set : ((p.place (lines.line c.span.start) own).write c.text true).IsSober P :=
      (h.place _ fits).write nofun
    exact set.withFields _ _ _ _
  cases sep with
  | glue | space => exact ⟨rfl, written .lineOrSpace rfl _⟩
  | breaks min space =>
    by_cases below : (p.started && decide (p.lastLine < lines.line c.span.start)) = true
    · have atMost : Nat.min min 1 ≤ 1 := Nat.min_le_right min 1
      have left : (Sep.breaks (Nat.min min 1) space).isModest = true := decide_eq_true (by omega)
      simp only [Printer.comment, if_pos below]
      exact ⟨left, written (.breaks min true) modest _⟩
    · simp only [Printer.comment, if_neg below]
      exact ⟨modest, written .lineOrSpace rfl _⟩

theorem IsSober.flush {limit : Option Nat} {cs : List Comment} (h : p.IsSober P)
    (modest : sep.isModest = true) :
    (flush lines limit cs sep p).1.isModest = true ∧
      (flush lines limit cs sep p).2.IsSober P := by
  induction cs generalizing sep p with
  | nil => exact ⟨modest, h.withFields _ _ _ _⟩
  | cons c cs ih =>
    unfold Printer.flush
    split
    · obtain ⟨left, set⟩ : (p.comment lines sep c).1.isModest = true ∧
          (p.comment lines sep c).2.IsSober P := h.comment modest c
      exact ih set left
    · exact ⟨modest, h.withFields _ _ _ _⟩

theorem IsSober.toPos (h : p.IsSober P) (pos : Nat) (modest : sep.isModest = true) :
    (p.toPos lines pos sep).IsSober P :=
  (h.flush modest).2.place _ (h.flush modest).1

theorem IsSober.extra (h : p.IsSober P) {text : String} (spelled : IsSpelling P text)
    (modest : sep.isModest = true) : (p.extra text sep).IsSober P :=
  (h.place p.lastLine modest).write fun _ => spelled

/-- Printing a sober layout sets no other gaps than these. -/
theorem IsSober.print {l : Layout} {d e : Nat} (sober : l.Sober P false d e) (h : p.IsSober P) :
    (Printer.print lines l p).IsSober P := by
  induction sober generalizing p with
  | nil => exact h
  | token spelled modest =>
    rw [Bool.or_false] at modest
    exact ((h.toPos _ modest).write fun _ => spelled).withFields _ _ _ _
  | extra spelled modest =>
    rw [Bool.or_false] at modest
    exact h.extra spelled modest
  | gap modest =>
    rw [Bool.or_false] at modest
    exact h.toPos _ modest
  | comments modest =>
    rw [Bool.or_false] at modest
    exact (h.flush modest).2
  | lastComma =>
    unfold Printer.print
    split
    · exact h.extra (.mark .comma) rfl
    · exact h
  | append left right ihLeft ihRight => exact ihRight (ihLeft h)
  | indent | dedent => exact h.withFields _ _ _ _
  | outdent inner ih => exact (ih (h.withFields _ _ _ _)).withFields _ _ _ _

end Printer

end GoLayout
