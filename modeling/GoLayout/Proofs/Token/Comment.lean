import GoLayout.Layout.Print
import GoLayout.Proofs.Token.Place

/-!
Comments are read back. The text of a comment of a source without faults is read as the same
comment wherever it is written; behind a line comment the line has to end.
-/

namespace GoLayout

namespace Lexeme

/-! ### The lexemes that readers read -/

theorem blank?_eq {cs : List Char} : ∀ r ∈ blank? cs, r.1 = .blank := by
  intro r read
  unfold blank? at read
  split at read
  · simp at read
  · exact congrArg Prod.fst (Option.some.inj read).symm

theorem newline?_eq {cs : List Char} : ∀ r ∈ newline? cs, r.1 = .newline := by
  intro r read
  unfold newline? at read
  split at read
  · exact congrArg Prod.fst (Option.some.inj read).symm
  · split at read
    · exact congrArg Prod.fst (Option.some.inj read).symm
    · simp at read
  · simp at read

theorem word?_eq {cs : List Char} : ∀ r ∈ word? cs, ∃ kind, r.1 = .token kind := by
  intro r read
  unfold word? at read
  split at read
  · split at read
    · exact ⟨_, congrArg Prod.fst (Option.some.inj read).symm⟩
    · simp at read
  · simp at read

theorem number?_eq {cs : List Char} : ∀ r ∈ number? cs, ∃ kind, r.1 = .token kind := by
  intro r read
  unfold number? at read
  split at read
  · exact ⟨_, congrArg Prod.fst (Option.some.inj read).symm⟩
  · simp at read

theorem quoted?_eq {cs : List Char} : ∀ r ∈ quoted? cs, ∃ kind, r.1 = .token kind := by
  intro r read
  unfold quoted? at read
  split at read
  · obtain ⟨_, -, rfl⟩ := Option.map_eq_some_iff.mp read
    exact ⟨_, rfl⟩
  · simp at read

theorem mark?_eq {cs : List Char} : ∀ r ∈ mark? cs, ∃ kind, r.1 = .token kind := by
  intro r read
  obtain ⟨_, -, found⟩ := List.exists_of_findSome?_eq_some read
  obtain ⟨_, -, rfl⟩ := Option.map_eq_some_iff.mp found
  exact ⟨_, rfl⟩

/-- A comment is read by the reader of comments. -/
theorem comment?_of_read {c : Char} {cs : List Char} {kind : CommentKind} {text : String}
    (h : (read c cs).1 = .comment kind text) : comment? (c :: cs) = some (read c cs) := by
  unfold read at h ⊢
  dsimp only at h ⊢
  generalize found : (blank? (c :: cs) <|> newline? (c :: cs) <|> comment? (c :: cs) <|>
    word? (c :: cs) <|> number? (c :: cs) <|> quoted? (c :: cs) <|> mark? (c :: cs)) = reading
    at h ⊢
  cases reading with
  | none => nomatch h
  | some r =>
    change r.1 = _ at h
    have notToken : ¬ ∃ kind, r.1 = .token kind := by
      rintro ⟨kind, isToken⟩
      nomatch h.symm.trans isToken
    rcases mem_orElse found with blank | found
    · nomatch h.symm.trans (blank?_eq r blank)
    rcases mem_orElse found with newline | found
    · nomatch h.symm.trans (newline?_eq r newline)
    rcases mem_orElse found with comment | found
    · exact comment
    rcases mem_orElse found with word | found
    · exact absurd (word?_eq r word) notToken
    rcases mem_orElse found with number | found
    · exact absurd (number?_eq r number) notToken
    rcases mem_orElse found with quoted | mark
    · exact absurd (quoted?_eq r quoted) notToken
    · exact absurd (mark?_eq r mark) notToken

/-! ### Comments as they are written -/

/-- The text of a comment from its opening to its end, and nothing behind it. -/
def IsComment (kind : CommentKind) (text : List Char) : Prop :=
  match kind with
  | .line => ∃ body, text = '/' :: '/' :: body ∧ ∀ c ∈ body, isLineEnd c = false
  | .block => ∃ body, text = '/' :: '*' :: body ∧ blockBody? body = some (body, [])

theorem blockBody?_ne_nil {cs taken rest : List Char} (h : blockBody? cs = some (taken, rest)) :
    taken ≠ [] := by
  rintro rfl
  unfold blockBody? at h
  split at h
  · simp at h
  · obtain ⟨_, -, parts⟩ := Option.map_eq_some_iff.mp h
    simp at parts
  · simp at h

theorem IsComment.eq_cons {kind : CommentKind} {text : List Char} (h : IsComment kind text) :
    ∃ rest, text = '/' :: rest := by
  cases kind with
  | line =>
    obtain ⟨body, rfl, -⟩ := h
    exact ⟨_, rfl⟩
  | block =>
    obtain ⟨body, rfl, -⟩ := h
    exact ⟨_, rfl⟩

/-- What closes a block comment does so whatever follows. -/
theorem blockBody?_taken {cs taken rest : List Char} (h : blockBody? cs = some (taken, rest))
    (rest' : List Char) : blockBody? (taken ++ rest') = some (taken, rest') := by
  fun_induction blockBody? cs generalizing taken rest with
  | case1 tail =>
    cases h
    rfl
  | case2 c tail open? ih =>
    obtain ⟨⟨taken', left⟩, body, parts⟩ := Option.map_eq_some_iff.mp h
    cases parts
    -- What does not close the comment in the text does not do so in the part taken either.
    have goesOn : ∀ more, c = '*' → taken' ++ rest' = '/' :: more → False := by
      rintro more rfl closes
      obtain ⟨d, ds, rfl⟩ := List.exists_cons_of_ne_nil (blockBody?_ne_nil body)
      obtain ⟨rfl, -⟩ := List.cons.inj closes
      exact open? _ rfl (blockBody?_append body).symm
    rw [List.cons_append, blockBody?.eq_2 c (taken' ++ rest') goesOn, ih body]
    rfl
  | case3 => simp at h

theorem isComment_of_comment? {cs : List Char} {kind : CommentKind} {text : String}
    {taken rest : List Char} (h : comment? cs = some (.comment kind text, taken, rest)) :
    IsComment kind text.toList := by
  unfold comment? at h
  split at h
  · rename_i tail
    rw [List.span_eq_takeWhile_dropWhile] at h
    cases h
    refine ⟨tail.takeWhile (!isLineEnd ·), String.toList_ofList, ?_⟩
    intro c mem
    simpa using List.mem_takeWhile_imp mem
  · split at h
    · rename_i body tail closed
      cases h
      have alone := blockBody?_taken closed []
      rw [List.append_nil] at alone
      exact ⟨body, String.toList_ofList, alone⟩
    · nomatch h
  · simp at h

theorem read_of_comment? {cs : List Char} {r : Reading} (h : comment? ('/' :: cs) = some r) :
    Lexeme.read '/' cs = r := by
  have blank : blank? ('/' :: cs) = none := by
    simp [blank?, List.span_eq_takeWhile_dropWhile, isBlank]
  have newline : newline? ('/' :: cs) = none := by simp [newline?, isLineEnd]
  simp [Lexeme.read, blank, newline, h]

/-- A comment is read again, where the line ends behind a line comment. -/
theorem IsComment.read {kind : CommentKind} {text rest : List Char} (h : IsComment kind text)
    (ends : kind = .line → ∃ more, rest = '\n' :: more) :
    ∃ c cs, text ++ rest = c :: cs ∧
      Lexeme.read c cs = (.comment kind (String.ofList text), text, rest) := by
  cases kind with
  | line =>
    obtain ⟨body, rfl, inLine⟩ := h
    obtain ⟨more, rfl⟩ := ends rfl
    have taken : (body ++ '\n' :: more).takeWhile (!isLineEnd ·) = body := by
      rw [List.takeWhile_append_of_pos (by simpa using inLine)]
      simp [isLineEnd]
    have left : (body ++ '\n' :: more).dropWhile (!isLineEnd ·) = '\n' :: more := by
      rw [List.dropWhile_append_of_pos (by simpa using inLine)]
      simp [isLineEnd]
    refine ⟨'/', '/' :: (body ++ '\n' :: more), rfl, read_of_comment? ?_⟩
    simp only [comment?, List.span_eq_takeWhile_dropWhile, taken, left]
  | block =>
    obtain ⟨body, rfl, closed⟩ := h
    have again := blockBody?_taken closed rest
    refine ⟨'/', '*' :: (body ++ rest), rfl, read_of_comment? ?_⟩
    simp only [comment?, again]

theorem eq_append_of_blockBody? {cs taken rest : List Char}
    (h : blockBody? cs = some (taken, rest)) : ∃ front, taken = front ++ ['*', '/'] := by
  fun_induction blockBody? cs generalizing taken rest with
  | case1 tail =>
    cases h
    exact ⟨[], rfl⟩
  | case2 c tail open? ih =>
    obtain ⟨⟨taken', left⟩, body, parts⟩ := Option.map_eq_some_iff.mp h
    cases parts
    obtain ⟨front, rfl⟩ := ih body
    exact ⟨c :: front, rfl⟩
  | case3 => simp at h

/-- A comment does not end with a newline. -/
theorem IsComment.count_dropLast {kind : CommentKind} {text : List Char}
    (h : IsComment kind text) : text.dropLast.count '\n' = text.count '\n' := by
  cases kind with
  | line =>
    obtain ⟨body, rfl, inLine⟩ := h
    have none : ('/' :: '/' :: body).count '\n' = 0 := by
      rw [List.count_eq_zero]
      intro mem
      have inBody : '\n' ∈ body := by simpa using mem
      exact absurd (inLine _ inBody) (by decide)
    rw [none, List.count_eq_zero]
    intro mem
    exact List.count_eq_zero.mp none (List.dropLast_subset _ mem)
  | block =>
    obtain ⟨body, rfl, closed⟩ := h
    obtain ⟨front, rfl⟩ := eq_append_of_blockBody? closed
    have ending : '/' :: '*' :: (front ++ ['*', '/']) =
        ('/' :: '*' :: (front ++ ['*'])) ++ ['/'] := by simp
    rw [ending, List.dropLast_concat, List.count_append]
    rfl

theorem readAll_isComment {pos fuel : Nat} {cs : List Char} :
    ∀ l ∈ readAll pos fuel cs, ∀ kind text, l.1 = .comment kind text →
      IsComment kind text.toList := by
  induction fuel generalizing pos cs with
  | zero => simp [readAll]
  | succ fuel ih =>
    cases cs with
    | nil => simp [readAll]
    | cons c cs =>
      refine List.forall_mem_cons.mpr ⟨?_, ih⟩
      intro kind text isComment
      change (read c cs).1 = .comment kind text at isComment
      have found : comment? (c :: cs) =
          some (.comment kind text, (read c cs).2.1, (read c cs).2.2) := by
        rw [comment?_of_read isComment, ← isComment]
      exact isComment_of_comment? found

theorem all_isComment (cs : List Char) : ∀ l ∈ all cs, ∀ kind text, l.1 = .comment kind text →
    IsComment kind text.toList := by
  unfold all
  split
  · split
    · exact List.forall_mem_cons.mpr ⟨nofun, readAll_isComment⟩
    · exact readAll_isComment
  · simp

/-! ### Reading on -/

/-- The lexemes of a text that starts at `pos`. -/
def Reads (pos : Nat) (cs : List Char) (ls : List (Lexeme × Span)) : Prop :=
  ∃ fuel, cs.length ≤ fuel ∧ readAll pos fuel cs = ls

theorem reads_all {c : Char} (h : c ≠ byteOrderMark) (cs : List Char) :
    Reads 0 (c :: cs) (all (c :: cs)) := ⟨(c :: cs).length, Nat.le_refl _, by rw [all, if_neg h]⟩

theorem Reads.step {pos : Nat} {c : Char} {cs taken rest : List Char} {lexeme : Lexeme}
    {ls : List (Lexeme × Span)} (reads : Reads pos (c :: cs) ls)
    (first : read c cs = (lexeme, taken, rest)) :
    ∃ ls', ls = (lexeme, ⟨pos, pos + bytes taken⟩) :: ls' ∧ Reads (pos + bytes taken) rest ls' := by
  obtain ⟨fuel, enough, rfl⟩ := reads
  obtain ⟨n, rfl⟩ : ∃ n, fuel = n + 1 := ⟨fuel - 1, by simp at enough; omega⟩
  have parts := (read_of c cs).parts
  have takes := List.length_pos_iff.mpr (read_of c cs).takes
  rw [first] at parts takes
  have shorter := congrArg List.length parts
  simp only [List.length_append] at shorter takes
  refine ⟨readAll (pos + bytes taken) n rest, ?_, n, by omega, rfl⟩
  rw [readAll, first]

/-- Lexemes that are neither tokens nor comments. -/
def IsBlankRun (ls : List (Lexeme × Span)) : Prop := ∀ l ∈ ls, l.1 = .blank ∨ l.1 = .newline

theorem Reads.newlines {before rest : List Char} {ls : List (Lexeme × Span)} (n : Nat)
    (reads : Reads (bytes before) (List.replicate n '\n' ++ rest) ls) :
    ∃ blanks ls', ls = blanks ++ ls' ∧ IsBlankRun blanks ∧
      Reads (bytes (before ++ List.replicate n '\n')) rest ls' := by
  induction n generalizing before ls with
  | zero => exact ⟨[], ls, rfl, nofun, by simpa using reads⟩
  | succ n ih =>
    rw [List.replicate_succ, List.cons_append] at reads
    have first : read '\n' (List.replicate n '\n' ++ rest) =
        (.newline, ['\n'], List.replicate n '\n' ++ rest) := by
      simp [read, blank?, newline?, List.span_eq_takeWhile_dropWhile, isBlank, isLineEnd]
    obtain ⟨ls', rfl, behind⟩ := reads.step first
    rw [← bytes_append] at behind
    obtain ⟨blanks, ls'', rfl, quiet, behind⟩ := ih behind
    refine ⟨_ :: blanks, ls'', rfl, List.forall_mem_cons.mpr ⟨Or.inr rfl, quiet⟩, ?_⟩
    rwa [List.append_assoc] at behind

/-- A gap without indentation before what is not blank. -/
theorem Reads.gap {before rest : List Char} {c : Char} {ls : List (Lexeme × Span)} {gap : Gap}
    (flush : ∀ count indent, gap = .lines count indent → indent = 0) (visible : isBlank c = false)
    (reads : Reads (bytes before) (gap.chars ++ c :: rest) ls) :
    ∃ blanks ls', ls = blanks ++ ls' ∧ IsBlankRun blanks ∧
      Reads (bytes (before ++ gap.chars)) (c :: rest) ls' := by
  cases gap with
  | none => exact ⟨[], ls, rfl, nofun, by simpa [Gap.chars] using reads⟩
  | space =>
    have first : read ' ' (c :: rest) = (.blank, [' '], c :: rest) := by
      have blank : blank? (' ' :: c :: rest) = some (.blank, [' '], c :: rest) := by
        have isSpace : isBlank ' ' = true := rfl
        simp [blank?, List.span_eq_takeWhile_dropWhile, visible, isSpace]
      simp [read, blank]
    obtain ⟨ls', rfl, behind⟩ := Reads.step reads first
    rw [← bytes_append] at behind
    exact ⟨[_], ls', rfl, by simp [IsBlankRun], behind⟩
  | lines count indent =>
    obtain rfl := flush count indent rfl
    have chars : (Gap.lines count 0).chars = List.replicate count '\n' := by simp [Gap.chars]
    rw [chars] at reads ⊢
    exact reads.newlines count

theorem Reads.comment {before text rest : List Char} {kind : CommentKind}
    {ls : List (Lexeme × Span)} (isComment : IsComment kind text)
    (ends : kind = .line → ∃ more, rest = '\n' :: more)
    (reads : Reads (bytes before) (text ++ rest) ls) :
    ∃ ls', ls =
        (.comment kind (String.ofList text), ⟨bytes before, bytes (before ++ text)⟩) :: ls' ∧
      Reads (bytes (before ++ text)) rest ls' := by
  obtain ⟨c, cs, parts, first⟩ := isComment.read ends
  rw [parts] at reads
  rw [bytes_append]
  exact reads.step first

end Lexeme

namespace Scan

/-- Every comment of a source without faults is closed. -/
theorem comments_isComment {src : String} (faultless : (ofSource src).faults = []) :
    ∀ c ∈ (ofSource src).comments, Lexeme.IsComment c.kind c.text.toList := by
  intro c mem
  obtain ⟨⟨lexeme, span⟩, found, isComment⟩ := List.mem_filterMap.mp mem
  unfold commentOf? at isComment
  split at isComment
  · rename_i parts
    cases parts
    cases isComment
    exact Lexeme.all_isComment _ _ found _ _ rfl
  · rename_i parts
    cases parts
    nomatch List.filterMap_eq_nil_iff.mp faultless _ found
  · simp at isComment

/-- Whether a lexeme is neither a token nor the place of one that is missing. -/
def isBetween : Lexeme → Bool
  | .blank | .newline | .comment .. => true
  | .token _ | .stray _ | .openComment _ => false

/-- Before the first token, nothing but tokens counts. -/
theorem tokensOf_append {size : Nat} {front ls : List (Lexeme × Span)}
    (between : ∀ l ∈ front, isBetween l.1) :
    tokensOf size false (front ++ ls) = tokensOf size false ls := by
  induction front with
  | nil => rfl
  | cons l front ih =>
    obtain ⟨here, behind⟩ := List.forall_mem_cons.mp between
    obtain ⟨lexeme, span⟩ := l
    cases lexeme with
    | blank => exact ih behind
    | newline => exact ih behind
    | comment kind text => exact ih behind
    | token kind => nomatch here
    | stray fault => nomatch here
    | openComment text => nomatch here

theorem commentOf?_blankRun {blanks : List (Lexeme × Span)} (quiet : Lexeme.IsBlankRun blanks) :
    blanks.filterMap commentOf? = [] ∧ ∀ l ∈ blanks, isBetween l.1 := by
  constructor
  · rw [List.filterMap_eq_nil_iff]
    rintro ⟨lexeme, span⟩ mem
    rcases quiet _ mem with isBlank | isNewline
    · cases isBlank
      rfl
    · cases isNewline
      rfl
  · intro l mem
    rcases quiet l mem with isBlank | isNewline
    · rw [isBlank]
      rfl
    · rw [isNewline]
      rfl

end Scan

end GoLayout
