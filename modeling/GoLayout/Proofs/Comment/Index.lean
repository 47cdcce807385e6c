import GoLayout.Proofs.Settle.File

/-!
The comments of a file and what is asked of their groups. The groups of a source that is read are
its comments, cut into pieces that stand one behind the other. So each offset has one boundary
among them, wherever a search begins, and the groups between two offsets are those that start
there.
-/

namespace GoLayout

namespace CommentGroup

variable {groups : List CommentGroup} {lo hi pos i j : Nat}

/-! ### The place of a group -/

theorem exists_last (g : CommentGroup) :
    ∃ front last, g.toList = front ++ [last] ∧ g.stop = last.span.stop := by
  unfold toList stop
  cases isLast : g.rest.getLast? with
  | none =>
    have alone : g.rest = [] := List.getLast?_eq_none_iff.mp isLast
    exact ⟨[], g.first, by rw [alone]; rfl, rfl⟩
  | some last =>
    obtain ⟨front, parts⟩ := List.getLast?_eq_some_iff.mp isLast
    exact ⟨g.first :: front, last, by rw [parts]; rfl, rfl⟩

section Apart

variable (apart : (groups.flatMap toList).Pairwise fun c c' => c.span.stop ≤ c'.span.start)
include apart

/-- One group ends before the next one starts. -/
theorem groups_apart : groups.Pairwise fun g g' => g.stop ≤ g'.start := by
  refine (List.pairwise_flatMap.mp apart).2.imp fun {g g'} across => ?_
  obtain ⟨front, last, parts, stop⟩ := g.exists_last
  rw [stop]
  refine across last ?_ g'.first List.mem_cons_self
  rw [parts]
  exact List.mem_append_right _ List.mem_cons_self

variable (solid : ∀ c ∈ groups.flatMap toList, c.span.start < c.span.stop)
include solid

/-- A group reaches from its first comment to its last one. -/
theorem covers_comments : ∀ g ∈ groups, ∀ c ∈ g.toList,
    g.start ≤ c.span.start ∧ c.span.stop ≤ g.stop := by
  intro g mem c inGroup
  have wide : ∀ d ∈ g.toList, d.span.start < d.span.stop := fun d inside =>
    solid d (List.mem_flatMap.mpr ⟨g, mem, inside⟩)
  have row := (List.pairwise_flatMap.mp apart).1 g mem
  constructor
  · rcases List.mem_cons.mp inGroup with rfl | behind
    · exact Nat.le_refl _
    · have next := (List.pairwise_cons.mp row).1 c behind
      exact Nat.le_trans (Nat.le_of_lt (wide g.first List.mem_cons_self)) next
  · obtain ⟨front, last, parts, stop⟩ := g.exists_last
    rw [parts] at row inGroup wide
    rw [stop]
    rcases List.mem_append.mp inGroup with before | isLast
    · have next := (List.pairwise_append.mp row).2.2 c before last List.mem_cons_self
      have := wide last (List.mem_append_right _ List.mem_cons_self)
      omega
    · rw [List.mem_singleton.mp isLast]

theorem start_lt_stop : ∀ g ∈ groups, g.start < g.stop := by
  intro g mem
  obtain ⟨-, within⟩ := covers_comments apart solid g mem g.first List.mem_cons_self
  have wide := solid g.first (List.mem_flatMap.mpr ⟨g, mem, List.mem_cons_self⟩)
  exact Nat.lt_of_lt_of_le wide within

end Apart

/-! ### Boundaries -/

/-- A boundary among groups: those before it start before `pos`, and those behind it do not. -/
structure Boundary (groups : List CommentGroup) (pos i : Nat) : Prop where
  inside : i ≤ groups.length
  below : ∀ g ∈ groups.take i, g.start < pos
  above : ∀ g ∈ groups.drop i, pos ≤ g.start

theorem Boundary.take_eq (h : Boundary groups pos i) :
    groups.take i = groups.filter (·.start < pos) := by
  conv_rhs => rw [← List.take_append_drop i groups]
  have all : (groups.take i).filter (·.start < pos) = groups.take i :=
    List.filter_eq_self.mpr fun g mem => decide_eq_true (h.below g mem)
  have none : (groups.drop i).filter (·.start < pos) = [] :=
    List.filter_eq_nil_iff.mpr fun g mem low =>
      Nat.not_lt.mpr (h.above g mem) (of_decide_eq_true low)
  rw [List.filter_append, all, none, List.append_nil]

theorem Boundary.drop_eq (h : Boundary groups pos i) :
    groups.drop i = groups.filter (pos ≤ ·.start) := by
  conv_rhs => rw [← List.take_append_drop i groups]
  have none : (groups.take i).filter (pos ≤ ·.start) = [] :=
    List.filter_eq_nil_iff.mpr fun g mem high =>
      Nat.not_le.mpr (h.below g mem) (of_decide_eq_true high)
  have all : (groups.drop i).filter (pos ≤ ·.start) = groups.drop i :=
    List.filter_eq_self.mpr fun g mem => decide_eq_true (h.above g mem)
  rw [List.filter_append, none, all, List.nil_append]

/-- There is no second boundary. -/
theorem Boundary.eq_countP (h : Boundary groups pos i) :
    i = groups.countP (·.start < pos) := by
  rw [List.countP_eq_length_filter, ← h.take_eq, List.length_take, Nat.min_eq_left h.inside]

/-- Groups that start in order have a boundary for every offset, and walking to it from the front
finds it. -/
theorem boundary_of_ascending (h : groups.Pairwise fun g g' => g.start ≤ g'.start) (pos : Nat) :
    ∃ i, Boundary groups pos i ∧ groups.takeWhile (·.start < pos) = groups.take i := by
  induction groups with
  | nil => exact ⟨0, ⟨Nat.le_refl _, by simp, by simp⟩, rfl⟩
  | cons g rest ih =>
    obtain ⟨first, ascending⟩ := List.pairwise_cons.mp h
    by_cases low : g.start < pos
    · obtain ⟨i, boundary, passed⟩ := ih ascending
      refine ⟨i + 1, ⟨Nat.succ_le_succ boundary.inside, ?_, boundary.above⟩, ?_⟩
      · exact List.forall_mem_cons.mpr ⟨low, boundary.below⟩
      · simp [low, passed]
    · refine ⟨0, ⟨Nat.zero_le _, by simp, ?_⟩, ?_⟩
      · have high : pos ≤ g.start := Nat.not_lt.mp low
        exact List.forall_mem_cons.mpr ⟨high, fun g' mem => Nat.le_trans high (first g' mem)⟩
      · simp [low]

section Ascending

variable (h : groups.Pairwise fun g g' => g.start ≤ g'.start)
include h

/-- Two searches, the second one behind the boundary that the first one found. -/
theorem between_eq_take_drop (first : Boundary groups lo i)
    (second : Boundary (groups.drop i) hi j) :
    between groups lo hi = (groups.drop i).take j := by
  have behind := h.sublist (List.drop_sublist i groups)
  obtain ⟨j', boundary, passed⟩ := boundary_of_ascending behind hi
  unfold between
  rw [dropWhile_eq_filter h, ← first.drop_eq, passed, boundary.eq_countP, ← second.eq_countP]

theorem inlineAt_eq_find? (lines : LineTable) (pos : Nat) :
    inlineAt groups lines pos = (groups.find? (pos ≤ ·.start)).bind fun g =>
      g.toList.find? fun c => lines.line c.span.start == lines.line pos := by
  unfold inlineAt
  rw [dropWhile_eq_filter h, List.head?_filter]
  rfl

theorem inlineAt_eq_getElem? (lines : LineTable) (boundary : Boundary groups pos i) :
    inlineAt groups lines pos = groups[i]?.bind fun g =>
      g.toList.find? fun c => lines.line c.span.start == lines.line pos := by
  unfold inlineAt
  rw [dropWhile_eq_filter h, ← boundary.drop_eq, List.head?_drop]
  rfl

end Ascending

end CommentGroup

namespace SourceFile

open CommentGroup (Boundary between inlineAt)

/-- The groups of a file are the comments of its source in order, each with its text, and they
stand one behind the other. The groups between two offsets are those that start there, and the
comment inline at an offset is the first on its line in the first group behind it. Both are what
any search for the boundaries finds, of which there is one for each offset. -/
theorem comment_groups_exact {src : String} {f : SourceFile} (read : parse src = .ok f) :
    f.comments.flatMap CommentGroup.toList = (Scan.ofSource src).comments ∧
      (Scan.ofSource src).comments.Pairwise (fun c c' => c.span.stop ≤ c'.span.start) ∧
      (∀ c ∈ (Scan.ofSource src).comments,
        c.span.start < c.span.stop ∧ c.span.Cuts src.toList c.text.toList) ∧
      (∀ g ∈ f.comments, g.toList ≠ [] ∧ g.start < g.stop ∧
        ∀ c ∈ g.toList, g.start ≤ c.span.start ∧ c.span.stop ≤ g.stop) ∧
      f.comments.Pairwise (fun g g' => g.stop ≤ g'.start) ∧
      (∀ lo hi, between f.comments lo hi =
        f.comments.filter fun g => lo ≤ g.start && g.start < hi) ∧
      (∀ lines pos, inlineAt f.comments lines pos = (f.comments.find? (pos ≤ ·.start)).bind
        fun g => g.toList.find? fun c => lines.line c.span.start == lines.line pos) ∧
      (∀ pos, ∃! i, Boundary f.comments pos i) ∧
      (∀ lo hi i j, Boundary f.comments lo i → Boundary (f.comments.drop i) hi j →
        between f.comments lo hi = (f.comments.drop i).take j) ∧
      ∀ lines pos i, Boundary f.comments pos i → inlineAt f.comments lines pos =
        f.comments[i]?.bind fun g =>
          g.toList.find? fun c => lines.line c.span.start == lines.line pos := by
  obtain ⟨_, header⟩ := readsHeader_of_parse read
  have all : f.comments.flatMap CommentGroup.toList = (Scan.ofSource src).comments :=
    header.allComments
  have solid : ∀ c ∈ f.comments.flatMap CommentGroup.toList, c.span.start < c.span.stop :=
    all ▸ Scan.comments_solid
  have apart : (f.comments.flatMap CommentGroup.toList).Pairwise
      fun c c' => c.span.stop ≤ c'.span.start := all ▸ Scan.comments_apart
  have ascending := (rising_of_parse read).ascending
  refine ⟨all, Scan.comments_apart, fun c mem => ⟨Scan.comments_solid c mem,
    Scan.comments_cut c mem⟩, fun g mem => ⟨List.cons_ne_nil _ _,
    CommentGroup.start_lt_stop apart solid g mem, CommentGroup.covers_comments apart solid g mem⟩,
    CommentGroup.groups_apart apart, CommentGroup.between_eq_filter ascending,
    CommentGroup.inlineAt_eq_find? ascending, fun pos => ?_,
    fun lo hi i j => CommentGroup.between_eq_take_drop ascending,
    fun lines pos i => CommentGroup.inlineAt_eq_getElem? ascending lines⟩
  obtain ⟨i, boundary, -⟩ := CommentGroup.boundary_of_ascending ascending pos
  exact ⟨i, boundary, fun i' other => other.eq_countP.trans boundary.eq_countP.symm⟩

/-- Offsets in the wrong order have no groups between them. -/
theorem comment_groups_exact_of_three :
    ∃ f, parse "// a\npackage p // b\n\n/* c */ // d\n" = .ok f ∧
      (f.comments.flatMap CommentGroup.toList).map (·.text) = ["// a", "// b", "/* c */", "// d"] ∧
      between f.comments 20 5 = [] := by
  generalize source : parse _ = parsed
  have accepted : parsed.toOption.isSome := by
    rw [← source]
    decide +kernel
  cases parsed with
  | error e => cases accepted
  | ok f =>
    obtain ⟨all, -, -, -, -, between, -⟩ := comment_groups_exact source
    refine ⟨f, rfl, ?_, ?_⟩
    · rw [all]
      decide +kernel
    · rw [between, List.filter_eq_nil_iff]
      intro g _ inside
      simp only [Bool.and_eq_true, decide_eq_true_eq] at inside
      omega

end SourceFile

end GoLayout
