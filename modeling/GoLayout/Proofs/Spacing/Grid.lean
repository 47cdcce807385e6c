import GoLayout.Proofs.LineTable.History
import GoLayout.Proofs.Spacing.Print
import Mathlib.Order.MinMax

/-!
Sources on a grid. Every source can be moved onto lines of equal width: an offset goes to its own
line, and on that line to the column that counts the comments before it. Lines stay as they are,
and every offset stays on its side of every comment.
-/

namespace GoLayout

namespace LineTable

/-- The table of a text with `count` lines of `width` bytes. -/
def grid (count width : Nat) : LineTable := ⟨(List.range count).map (· * width), count * width⟩

theorem ordered_grid {count width : Nat} (lines : 0 < count) (wide : 0 < width) :
    (grid count width).Ordered where
  rooted := by
    obtain ⟨n, rfl⟩ : ∃ n, count = n + 1 := ⟨count - 1, by omega⟩
    simp [grid, List.range_succ_eq_map]
  increasing := by
    refine List.pairwise_map.mpr (List.pairwise_lt_range.imp ?_)
    intro a b below
    exact Nat.mul_lt_mul_of_pos_right below wide
  within := by
    intro s mem
    obtain ⟨row, inside, rfl⟩ := List.mem_map.mp mem
    exact Nat.mul_le_mul_right _ (Nat.le_of_lt (List.mem_range.mp inside))

theorem line_grid {count width row column : Nat} (below : row < count) (inside : column < width) :
    (grid count width).line (row * width + column) = row + 1 := by
  obtain ⟨n, rfl⟩ : ∃ n, count = (row + 1) + n := ⟨count - (row + 1), by omega⟩
  have upTo : ∀ r, r * width ≤ row * width + column ↔ r < row + 1 := by
    intro r
    have quotient : (row * width + column) / width = row := by
      rw [Nat.add_comm, Nat.add_mul_div_right _ _ (by omega), Nat.div_eq_of_lt inside, Nat.zero_add]
    rw [← Nat.le_div_iff_mul_le (by omega), quotient, Nat.lt_succ_iff]
  rw [(ordered_grid (by omega) (by omega)).line_eq_countP, grid, List.countP_map, List.range_add,
    List.countP_append]
  have before : (List.range (row + 1)).countP ((fun s => decide (s ≤ row * width + column)) ∘
      (· * width)) = row + 1 := by
    rw [List.countP_eq_length.mpr, List.length_range]
    intro r mem
    simpa only [Function.comp_apply, decide_eq_true_eq, upTo, List.mem_range] using mem
  have behind : ((List.range n).map (row + 1 + ·)).countP
      ((fun s => decide (s ≤ row * width + column)) ∘ (· * width)) = 0 := by
    rw [List.countP_eq_zero]
    intro r mem
    obtain ⟨k, -, rfl⟩ := List.mem_map.mp mem
    simp only [Function.comp_apply, decide_eq_true_eq, upTo]
    omega
  rw [before, behind]

variable {t : LineTable}

theorem Ordered.line_zero (h : t.Ordered) : t.line 0 = 1 := by
  obtain ⟨starts, size⟩ := t
  obtain ⟨rooted, increasing, -⟩ := h
  cases starts with
  | nil => simp at rooted
  | cons first rest =>
    obtain rfl : first = 0 := by simpa using rooted
    have later := (List.pairwise_cons.mp increasing).1
    cases rest with
    | nil => rfl
    | cons second rest =>
      have := later second List.mem_cons_self
      simp [line]
      omega

theorem Ordered.line_pos (h : t.Ordered) (a : Nat) : 0 < t.line a :=
  LineTable.line_pos h.over a

theorem Ordered.line_max (h : t.Ordered) (a b : Nat) :
    t.line (max a b) = max (t.line a) (t.line b) :=
  Monotone.map_max fun _ _ => h.line_mono

end LineTable

/-- The comments that start before an offset. -/
def Comment.countBefore (comments : List Comment) (pos : Nat) : Nat :=
  comments.countP (·.span.start < pos)

theorem Comment.countBefore_mono (comments : List Comment) {a b : Nat} (le : a ≤ b) :
    countBefore comments a ≤ countBefore comments b := by
  refine List.countP_mono_left fun c _ before => ?_
  simp only [decide_eq_true_eq] at before ⊢
  omega

theorem Comment.countBefore_lt {comments : List Comment} {c : Comment} (mem : c ∈ comments)
    {pos : Nat} (before : c.span.start < pos) :
    countBefore comments c.span.start < countBefore comments pos := by
  induction comments with
  | nil => simp at mem
  | cons d ds ih =>
    have rest : countBefore ds c.span.start ≤ countBefore ds pos :=
      countBefore_mono ds (Nat.le_of_lt before)
    simp only [countBefore, List.countP_cons, decide_eq_true_eq] at rest ih ⊢
    rcases List.mem_cons.mp mem with rfl | mem
    · rw [if_neg (Nat.lt_irrefl _), if_pos before]
      omega
    · have rest := ih mem
      by_cases here : d.span.start < c.span.start
      · rw [if_pos here, if_pos (here.trans before)]
        omega
      · rw [if_neg here]
        omega

namespace Moving

variable {lines : LineTable} (ordered : lines.Ordered) (comments : List Comment)

/-- Moves a source onto lines of `width` bytes. -/
def onGrid (width : Nat) : Moving where
  start a := (lines.line a - 1) * width + Comment.countBefore comments a
  stop b := min b 1 + (lines.line (b - 1) - 1) * width
  start_zero := by simp [ordered.line_zero, Comment.countBefore]
  stop_zero := by simp [ordered.line_zero]

variable {comments} {width count : Nat}

theorem onGrid_line_start (wide : comments.length < width) (enough : lines.count ≤ count)
    (a : Nat) :
    (LineTable.grid count width).line ((onGrid ordered comments width).start a) = lines.line a := by
  have first := ordered.line_pos a
  have last := lines.line_le_count a
  have column : Comment.countBefore comments a < width := List.countP_le_length.trans_lt wide
  have line : (LineTable.grid count width).line ((onGrid ordered comments width).start a) =
      lines.line a - 1 + 1 := LineTable.line_grid (by omega) column
  omega

theorem onGrid_start_lt (wide : comments.length < width) (enough : lines.count ≤ count) (a : Nat) :
    (onGrid ordered comments width).start a < count * width := by
  have first := ordered.line_pos a
  have last := lines.line_le_count a
  have column : Comment.countBefore comments a < width := List.countP_le_length.trans_lt wide
  calc (lines.line a - 1) * width + Comment.countBefore comments a
      < (lines.line a - 1) * width + width := Nat.add_lt_add_left column _
    _ = (lines.line a - 1 + 1) * width := (Nat.succ_mul _ _).symm
    _ ≤ count * width := Nat.mul_le_mul_right width (by omega)

theorem onGrid_line_stop (wide : comments.length < width) (enough : lines.count ≤ count)
    (b : Nat) :
    (LineTable.grid count width).line ((onGrid ordered comments width).stop b - 1) =
      lines.line (b - 1) := by
  have first := ordered.line_pos (b - 1)
  have last := lines.line_le_count (b - 1)
  have place : (onGrid ordered comments width).stop b - 1 =
      (lines.line (b - 1) - 1) * width + 0 := by
    change min b 1 + (lines.line (b - 1) - 1) * width - 1 = _
    cases b with
    | zero => simp [ordered.line_zero]
    | succ b => omega
  rw [place, LineTable.line_grid (by omega) (by omega)]
  omega

theorem onGrid_keepsLines (wide : comments.length < width) (enough : lines.count ≤ count) :
    (onGrid ordered comments width).KeepsLines lines (LineTable.grid count width) where
  line := onGrid_line_start ordered wide enough
  lastLine := by
    intro s
    have first := ordered.line_pos 0
    have last := lines.line_le_count 0
    have grid : (LineTable.grid count width).Ordered :=
      LineTable.ordered_grid (by omega) (by omega)
    change (LineTable.grid count width).line (max (_ - 1) _) = lines.line (max (s.stop - 1) s.start)
    rw [grid.line_max, ordered.line_max]
    exact congrArg₂ max (onGrid_line_stop ordered wide enough s.stop)
      (onGrid_line_start ordered wide enough s.start)

theorem onGrid_start_mono {a b : Nat} (le : a ≤ b) :
    (onGrid ordered comments width).start a ≤ (onGrid ordered comments width).start b := by
  have rows : lines.line a - 1 ≤ lines.line b - 1 := Nat.sub_le_sub_right (ordered.line_mono le) 1
  exact Nat.add_le_add (Nat.mul_le_mul_right width rows) (Comment.countBefore_mono comments le)

theorem onGrid_keepsOrder {c : Comment} (mem : c ∈ comments) :
    (onGrid ordered comments width).KeepsOrder c := by
  intro pos
  constructor
  · intro before
    by_contra behind
    exact absurd (onGrid_start_mono ordered (Nat.le_of_not_lt behind)) (Nat.not_le_of_lt before)
  · intro before
    have rows : lines.line c.span.start - 1 ≤ lines.line pos - 1 :=
      Nat.sub_le_sub_right (ordered.line_mono (Nat.le_of_lt before)) 1
    exact Nat.add_lt_add_of_le_of_lt (Nat.mul_le_mul_right width rows)
      (Comment.countBefore_lt mem before)

end Moving

end GoLayout
