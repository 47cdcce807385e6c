import GoLayout.Proofs.Settle.File

/-!
Which comments are spaced. A space is put behind the slashes of a line comment if text follows them
directly and its whole group is prose; what tools read is no prose. All else about comments stays,
and a second pass finds nothing to do.
-/

namespace GoLayout

/-! ### What tools read -/

/-- What tools read behind the slashes: a word in lower case and a colon, or one of a few words that
goes on no further. -/
inductive Text.IsDirective : List Char → Prop where
  | tool {word rest : List Char} (nonempty : word ≠ []) (lower : ∀ c ∈ word, 'a' ≤ c ∧ c ≤ 'z') :
    IsDirective (word ++ ':' :: rest)
  | word {word : String} {rest : List Char}
      (known : word ∈ ["line", "export", "extern", "sys", "sysnb"])
      (ends : ∀ c ∈ rest.head?, ¬ isWord c) : IsDirective (word.toList ++ rest)

namespace Text

theorem isLower_iff {c : Char} : c.isLower ↔ 'a' ≤ c ∧ c ≤ 'z' := by
  change (decide ('a'.val ≤ c.val) && decide (c.val ≤ 'z'.val)) = true ↔ _
  rw [Bool.and_eq_true, decide_eq_true_eq, decide_eq_true_eq]
  rfl

theorem wordEnds_iff {cs : List Char} : wordEnds cs ↔ ∀ c ∈ cs.head?, ¬ isWord c := by
  cases cs <;> simp [wordEnds]

/-- The word in lower case that a text begins with is the longest one, and the colon ends it. -/
theorem isTool_iff {cs : List Char} :
    (!(cs.takeWhile Char.isLower).isEmpty &&
      (cs.drop (cs.takeWhile Char.isLower).length).head? == some ':') ↔
    ∃ word rest, word ≠ [] ∧ (∀ c ∈ word, c.isLower) ∧ cs = word ++ ':' :: rest := by
  simp only [Bool.and_eq_true, Bool.not_eq_true', List.isEmpty_eq_false_iff, beq_iff_eq]
  constructor
  · rintro ⟨nonempty, colon⟩
    obtain ⟨rest, behind⟩ := List.head?_eq_some_iff.mp colon
    refine ⟨_, rest, nonempty, List.all_eq_true.mp List.all_takeWhile, ?_⟩
    have left : cs.drop (cs.takeWhile Char.isLower).length = cs.dropWhile Char.isLower := by
      have dropped : ((cs.takeWhile Char.isLower) ++ cs.dropWhile Char.isLower).drop
          (cs.takeWhile Char.isLower).length = cs.dropWhile Char.isLower := List.drop_left
      rwa [List.takeWhile_append_dropWhile] at dropped
    rw [← behind, left, List.takeWhile_append_dropWhile]
  · rintro ⟨word, rest, nonempty, lower, rfl⟩
    have taken : (word ++ ':' :: rest).takeWhile Char.isLower = word := by
      rw [List.takeWhile_append_of_pos lower]
      simp
    simp [taken, nonempty]

theorem isDirective_iff {cs : List Char} : isDirective cs ↔ IsDirective cs := by
  rw [isDirective, Bool.or_eq_true, isTool_iff, List.any_eq_true]
  simp only [Option.any_eq_true, List.isPrefixOf?_eq_some_iff_append_eq, wordEnds_iff, isLower_iff]
  constructor
  · rintro (⟨word, rest, nonempty, lower, rfl⟩ | ⟨word, known, rest, rfl, ends⟩)
    · exact .tool nonempty lower
    · exact .word known ends
  · rintro (⟨nonempty, lower⟩ | ⟨known, ends⟩)
    · exact .inl ⟨_, _, nonempty, lower, rfl⟩
    · exact .inr ⟨_, known, _, rfl, ends⟩

end Text

/-! ### Single comments -/

namespace Comment

/-- A line comment that is read as prose: no tool reads it, and it begins like a text. -/
structure ReadsAsProse (c : Comment) : Prop where
  kind : c.kind = .line
  body : ∃ body, c.text.toList = '/' :: '/' :: body ∧ ¬ Text.IsDirective body ∧
    ∀ b ∈ body.head?, Text.isAlphanumeric b ∨ Text.isWhite b

/-- Text follows the slashes directly. -/
def IsTight (c : Comment) : Prop :=
  ∃ b body, c.text.toList = '/' :: '/' :: b :: body ∧ ¬ Text.isWhite b

variable {c : Comment}

theorem body?_eq_some_iff {body : List Char} :
    c.body? = some body ↔ c.text.toList = '/' :: '/' :: body := by
  rw [body?, List.isPrefixOf?_eq_some_iff_append_eq]
  exact eq_comm

theorem isProse_iff : c.isProse ↔ c.ReadsAsProse := by
  simp only [isProse, Bool.and_eq_true, beq_iff_eq, Option.any_eq_true, body?_eq_some_iff,
    Bool.not_eq_true', ← Bool.not_eq_true, Text.isDirective_iff, Option.all_eq_true,
    Bool.or_eq_true]
  exact ⟨fun ⟨kind, body⟩ => ⟨kind, body⟩, fun ⟨kind, body⟩ => ⟨kind, body⟩⟩

theorem kind_spaced (c : Comment) : c.spaced.kind = c.kind := by
  unfold spaced
  split
  · split <;> rfl
  · rfl

/-- A comment that is not tight stays. -/
theorem spaced_of_not_tight (h : ¬ c.IsTight) : c.spaced = c := by
  unfold spaced
  split
  · rename_i b body found
    split
    · rfl
    · rename_i visible
      exact absurd ⟨b, body, body?_eq_some_iff.mp found, visible⟩ h
  · rfl

theorem text_spaced_of_tight (h : c.IsTight) :
    ∃ body, c.text = "//" ++ body ∧ c.spaced.text = "// " ++ body := by
  obtain ⟨b, body, text, visible⟩ := h
  refine ⟨String.ofList (b :: body), ?_, ?_⟩
  · rw [← String.toList_inj, text]
    simp
  · rw [spaced, body?_eq_some_iff.mpr text]
    simp [visible, ← String.toList_inj]

theorem text_spaced_ne_of_tight (h : c.IsTight) : c.spaced.text ≠ c.text := by
  obtain ⟨body, before, after⟩ := text_spaced_of_tight h
  rw [before, after]
  intro same
  have shorter : "// ".length = "//".length := by simpa using congrArg String.length same
  exact absurd shorter (by decide)

/-- A spaced comment has its space. -/
theorem not_tight_spaced (c : Comment) : ¬ c.spaced.IsTight := by
  by_cases tight : c.IsTight
  · obtain ⟨body, -, after⟩ := text_spaced_of_tight tight
    rintro ⟨b, rest, text, visible⟩
    rw [after] at text
    obtain ⟨rfl, -⟩ : ' ' = b ∧ body.toList = rest := by simpa using text
    exact visible (by decide)
  · rwa [spaced_of_not_tight tight]

end Comment

/-! ### Groups -/

namespace CommentGroup

variable {g : CommentGroup}

theorem toList_map (f : Comment → Comment) : (g.map f).toList = g.toList.map f := rfl

/-- What becomes of a comment of a group. -/
structure Spaces (g : CommentGroup) (c c' : Comment) : Prop where
  kind : c'.kind = c.kind
  span : c'.span = c.span
  changes : c'.text ≠ c.text ↔ c.IsTight ∧ ∀ other ∈ g.toList, other.ReadsAsProse
  edit : c'.text ≠ c.text → ∃ body, c.text = "//" ++ body ∧ c'.text = "// " ++ body

theorem spaced_spaces (g : CommentGroup) : List.Forall₂ (Spaces g) g.toList g.spaced.toList := by
  by_cases prose : ∀ c ∈ g.toList, c.ReadsAsProse
  · have spaced : g.spaced = g.map Comment.spaced :=
      if_pos (List.all_eq_true.mpr fun c mem => Comment.isProse_iff.mpr (prose c mem))
    rw [spaced, toList_map, List.forall₂_map_right_iff, List.forall₂_same]
    intro c _
    have changes : c.spaced.text ≠ c.text ↔ c.IsTight := by
      refine ⟨fun changed => ?_, Comment.text_spaced_ne_of_tight⟩
      by_contra loose
      exact changed (congrArg _ (Comment.spaced_of_not_tight loose))
    refine ⟨c.kind_spaced, span_spaced c, ?_, fun changed => ?_⟩
    · rw [changes, and_iff_left prose]
    · exact Comment.text_spaced_of_tight (changes.mp changed)
  · have spaced : g.spaced = g := by
      refine if_neg fun all => prose fun c mem => ?_
      exact Comment.isProse_iff.mp (List.all_eq_true.mp all c mem)
    rw [spaced, List.forall₂_same]
    exact fun c _ => ⟨rfl, rfl, by simp [prose], by simp⟩

/-- A group that was spaced is spaced no further. -/
theorem spaced_spaced (g : CommentGroup) : g.spaced.spaced = g.spaced := by
  by_cases prose : g.toList.all Comment.isProse
  · have once : g.spaced = g.map Comment.spaced := if_pos prose
    have twice : (g.map Comment.spaced).map Comment.spaced = g.map Comment.spaced := by
      simp [map, Comment.spaced_of_not_tight (Comment.not_tight_spaced _)]
    rw [once, spaced, twice, ite_self]
  · have same : g.spaced = g := if_neg prose
    rw [same, same]

end CommentGroup

/-! ### The comments of a file -/

/-- Tidying keeps the comments of a file in their order and groups, with their kinds and places. It
puts one space behind the slashes of just those comments that text follows directly and that stand
in a group of prose, and would put no further space into the comments that it leaves. -/
theorem SourceFile.tidy_spaces_comments {src : String} {f : SourceFile} (opts : Options)
    (read : SourceFile.parse src = .ok f) :
    ∃ f', (SourceFile.tidy opts).run f = .ok () f' ∧
      List.Forall₂ (fun g g' => List.Forall₂ (CommentGroup.Spaces g) g.toList g'.toList)
        f.comments f'.comments ∧
      f'.comments.map CommentGroup.spaced = f'.comments := by
  obtain ⟨_, f', run, -, comments⟩ := SourceFile.tidy_settles opts read
  refine ⟨f', run, ?_, ?_⟩
  · rw [comments, List.forall₂_map_right_iff, List.forall₂_same]
    exact fun g _ => g.spaced_spaces
  · simp [comments, CommentGroup.spaced_spaced]

/-- A group of prose in which one comment is tight, and one that a directive keeps as it is. -/
theorem SourceFile.tidy_spaces_comments_of_two_groups :
    ∃ f f', SourceFile.parse "package p\n\n//a\n// b\n\n//go:c\n//d\nvar x = 1\n" = .ok f ∧
      (SourceFile.tidy ⟨none, true, none, false, none⟩).run f = .ok () f' ∧
      List.Forall₂ (fun g g' => List.Forall₂ (CommentGroup.Spaces g) g.toList g'.toList)
        f.comments f'.comments ∧
      f'.comments.map CommentGroup.spaced = f'.comments := by
  generalize source : SourceFile.parse _ = parsed
  have accepted : parsed.isOk := by
    rw [← source]
    decide +kernel
  cases parsed with
  | error e => nomatch accepted
  | ok f =>
    obtain ⟨f', tidied⟩ := SourceFile.tidy_spaces_comments ⟨none, true, none, false, none⟩ source
    exact ⟨f, f', rfl, tidied⟩

end GoLayout
