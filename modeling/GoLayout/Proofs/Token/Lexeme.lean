import GoLayout.Proofs.LineTable
import GoLayout.Token.Scan
import Mathlib.Data.List.Basic
import Mathlib.Data.List.Nodup
import Mathlib.Data.List.TakeDrop

/-!
The lexemes of a source cover it: what a reader takes from the front of a text and what it leaves
make up that text again. The span of every lexeme, and with it of every token and comment, lies
within the source.
-/

namespace GoLayout

/-! ### Numbers -/

namespace Number

/-- A reader of a part neither loses nor adds characters. -/
def Exact (part : List Char → Split) : Prop := ∀ cs, (part cs).1 ++ (part cs).2 = cs

theorem more_append {part : List Char → Split} (exact : Exact part) (s : Split) :
    (more part s).1 ++ (more part s).2 = s.1 ++ s.2 := by
  obtain ⟨taken, rest⟩ := s
  change (taken ++ (part rest).1) ++ (part rest).2 = taken ++ rest
  rw [List.append_assoc, exact rest]

theorem exact_base : Exact base := by
  intro cs
  unfold base
  split
  · split <;> rfl
  · rfl

theorem exact_digits (hex : Bool) : Exact (digits hex) := fun cs => by
  simp only [digits, List.span_eq_takeWhile_dropWhile, List.takeWhile_append_dropWhile]

theorem exact_fraction (hex : Bool) : Exact (fraction hex) := by
  intro cs
  unfold fraction
  split
  · rfl
  · rename_i rest _
    exact congrArg ('.' :: ·) (exact_digits hex rest)
  · rfl

theorem exact_sign : Exact sign := by
  intro cs
  unfold sign
  split
  · split <;> rfl
  · rfl

theorem exact_exponent (hex : Bool) : Exact (exponent hex) := by
  intro cs
  unfold exponent
  split
  · split
    · rw [more_append (exact_digits false), more_append exact_sign]
      rfl
    · rfl
  · rfl

theorem exact_suffix : Exact suffix := by
  intro cs
  unfold suffix
  split <;> rfl

theorem exact_read : Exact read := by
  intro cs
  unfold read
  rw [more_append exact_suffix, more_append (exact_exponent _), more_append (exact_fraction _),
    more_append (exact_digits _), exact_base]

/-- What was taken before is kept in front. -/
theorem taken_of_more {part : List Char → Split} {s : Split} (h : (more part s).1 = []) :
    s.1 = [] ∧ (part s.2).1 = [] := List.append_eq_nil_iff.mp h

theorem digits_ne_nil (hex : Bool) {c : Char} (digit : c.isDigit) (cs : List Char) :
    (digits hex (c :: cs)).1 ≠ [] := by
  simp [digits, List.span_eq_takeWhile_dropWhile, isDigit, digit]

theorem fraction_ne_nil (hex : Bool) {c : Char} (digit : c.isDigit) (cs : List Char) :
    (fraction hex ('.' :: c :: cs)).1 ≠ [] := by
  have noPoint : c ≠ '.' := by
    rintro rfl
    exact absurd digit (by decide)
  unfold fraction
  split
  · rename_i same
    exact absurd (List.cons.inj (List.cons.inj same).2).1 noPoint
  · simp
  · rename_i other
    exact absurd rfl (other (c :: cs))

/-- A number has at least one character. -/
theorem read_ne_nil {cs : List Char} (starts : Lexeme.startsNumber cs) : (read cs).1 ≠ [] := by
  intro nothing
  obtain ⟨nothing, -⟩ := taken_of_more nothing
  obtain ⟨nothing, -⟩ := taken_of_more nothing
  obtain ⟨nothing, noFraction⟩ := taken_of_more nothing
  obtain ⟨noBase, noDigits⟩ := taken_of_more nothing
  have rest : (base cs).2 = cs := by simpa [noBase] using exact_base cs
  rw [rest] at noDigits
  have rest' : (more (digits (isHex cs)) (base cs)).2 = cs := by
    have parts := more_append (exact_digits (isHex cs)) (base cs)
    rwa [nothing, exact_base, List.nil_append] at parts
  rw [rest'] at noFraction
  unfold Lexeme.startsNumber at starts
  split at starts
  · exact fraction_ne_nil _ starts _ noFraction
  · exact digits_ne_nil _ starts _ noDigits
  · nomatch starts

end Number

/-! ### Spellings -/

theorem Keyword.spelling_of_ofSpelling? {word : String} {k : Keyword}
    (h : Keyword.ofSpelling? word = some k) : k.spelling = word := by
  have same := List.find?_some h
  exact eq_of_beq same

theorem Keyword.ofSpelling?_spelling (k : Keyword) : ofSpelling? k.spelling = some k := by
  cases k <;> rfl

/-- The characters that a token of this kind is written with. -/
def TokenKind.spelling : TokenKind → String
  | .name text | .literal _ text => text
  | .keyword k => k.spelling
  | .mark m => m.spelling
  | .eof | .invalid => ""

/-! ### Marks -/

theorem Mark.mem_all (m : Mark) : m ∈ Mark.all := by cases m <;> decide

/-- No two marks are spelled alike. -/
theorem Mark.spelling_injective {m m' : Mark} (h : m.spelling = m'.spelling) : m = m' := by
  have distinct : (Mark.all.map Mark.spelling).Nodup := by decide +kernel
  exact List.inj_on_of_nodup_map distinct m.mem_all m'.mem_all h

theorem Mark.spelling_ne_nil (m : Mark) : m.spelling.toList ≠ [] := by
  have written : ∀ m ∈ Mark.all, m.spelling.toList ≠ [] := by decide +kernel
  exact written m m.mem_all

namespace Lexeme

/-! ### Single lexemes -/

/-- What a lexeme is written as, where it tells. -/
def text? : Lexeme → Option String
  | .token kind => some kind.spelling
  | .comment _ text | .openComment text => some text
  | .blank | .newline | .stray _ => none

/-- A reading takes characters off the front of a text, those that its lexeme is written with. -/
structure Reading.Of (cs : List Char) (r : Reading) : Prop where
  parts : r.2.1 ++ r.2.2 = cs
  takes : r.2.1 ≠ []
  spelled : ∀ text ∈ r.1.text?, text.toList = r.2.1

theorem blank?_of (cs : List Char) : ∀ r ∈ blank? cs, Reading.Of cs r := by
  intro r read
  unfold blank? at read
  rw [List.span_eq_takeWhile_dropWhile] at read
  split at read
  · simp at read
  · rename_i taken rest takes parts
    obtain rfl := Option.some.inj read
    obtain ⟨rfl, rfl⟩ := Prod.mk.inj parts
    exact ⟨List.takeWhile_append_dropWhile, takes, by simp [text?]⟩

theorem newline?_of (cs : List Char) : ∀ r ∈ newline? cs, Reading.Of cs r := by
  intro r read
  unfold newline? at read
  split at read
  · obtain rfl := Option.some.inj read
    exact ⟨rfl, by simp, by simp [text?]⟩
  · split at read
    · obtain rfl := Option.some.inj read
      exact ⟨rfl, by simp, by simp [text?]⟩
    · simp at read
  · simp at read

theorem blockBody?_append {cs taken rest : List Char} (h : blockBody? cs = some (taken, rest)) :
    taken ++ rest = cs := by
  fun_induction blockBody? cs generalizing taken rest with
  | case1 tail =>
    cases h
    rfl
  | case2 c tail _ ih =>
    obtain ⟨⟨taken', rest'⟩, body, parts⟩ := Option.map_eq_some_iff.mp h
    cases parts
    exact congrArg (c :: ·) (ih body)
  | case3 => simp at h

theorem comment?_of (cs : List Char) : ∀ r ∈ comment? cs, Reading.Of cs r := by
  intro r read
  unfold comment? at read
  split at read
  · rw [List.span_eq_takeWhile_dropWhile] at read
    obtain rfl := Option.some.inj read
    exact ⟨by simp, by simp, by simp [text?]⟩
  · rename_i rest
    split at read
    · rename_i body rest' parts
      obtain rfl := Option.some.inj read
      exact ⟨by simp [blockBody?_append parts], by simp, by simp [text?]⟩
    · obtain rfl := Option.some.inj read
      exact ⟨by simp, by simp, by simp [text?]⟩
  · simp at read

theorem word?_of (cs : List Char) : ∀ r ∈ word? cs, Reading.Of cs r := by
  intro r read
  unfold word? at read
  split at read
  · split at read
    · rw [List.span_eq_takeWhile_dropWhile] at read
      obtain rfl := Option.some.inj read
      refine ⟨by simp, by simp, ?_⟩
      rintro text ⟨⟩
      dsimp only
      split
      · rename_i k isKeyword
        rw [TokenKind.spelling, Keyword.spelling_of_ofSpelling? isKeyword, String.toList_ofList]
      · exact String.toList_ofList
    · simp at read
  · simp at read

theorem number?_of (cs : List Char) : ∀ r ∈ number? cs, Reading.Of cs r := by
  intro r read
  unfold number? at read
  split at read
  · rename_i starts
    obtain rfl := Option.some.inj read
    exact ⟨Number.exact_read cs, Number.read_ne_nil starts, by simp [text?, TokenKind.spelling]⟩
  · simp at read

theorem quotedBody?_append {quote : Char} {cs taken rest : List Char}
    (h : quotedBody? quote cs = some (taken, rest)) : taken ++ rest = cs := by
  fun_induction quotedBody? quote cs generalizing taken rest with
  | case1 => simp at h
  | case2 c tail _ ih =>
    obtain ⟨⟨taken', rest'⟩, body, parts⟩ := Option.map_eq_some_iff.mp h
    cases parts
    exact congrArg ('\\' :: c :: ·) (ih body)
  | case3 =>
    cases h
    rfl
  | case4 => simp at h
  | case5 c tail _ _ _ ih =>
    obtain ⟨⟨taken', rest'⟩, body, parts⟩ := Option.map_eq_some_iff.mp h
    cases parts
    exact congrArg (c :: ·) (ih body)
  | case6 => simp at h

theorem rawBody?_append {cs taken rest : List Char} (h : rawBody? cs = some (taken, rest)) :
    taken ++ rest = cs := by
  unfold rawBody? at h
  rw [List.span_eq_takeWhile_dropWhile] at h
  split at h
  · rename_i body quote tail parts
    obtain ⟨rfl, left⟩ := Prod.mk.inj parts
    cases h
    rw [List.append_assoc, List.singleton_append, ← left, List.takeWhile_append_dropWhile]
  · simp at h

theorem literalBody?_append {quote : Char} {kind : LiteralKind} {cs taken rest : List Char}
    (h : literalBody? quote cs = some (kind, taken, rest)) : taken ++ rest = cs := by
  unfold literalBody? at h
  split at h
  · obtain ⟨_, body, parts⟩ := Option.map_eq_some_iff.mp h
    cases parts
    exact quotedBody?_append body
  · obtain ⟨_, body, parts⟩ := Option.map_eq_some_iff.mp h
    cases parts
    exact rawBody?_append body
  · split at h
    · simp at h
    · obtain ⟨_, body, parts⟩ := Option.map_eq_some_iff.mp h
      cases parts
      exact quotedBody?_append body
  · simp at h

theorem quoted?_of (cs : List Char) : ∀ r ∈ quoted? cs, Reading.Of cs r := by
  intro r read
  unfold quoted? at read
  split at read
  · rename_i quote tail
    obtain ⟨⟨kind, body, rest⟩, parts, rfl⟩ := Option.map_eq_some_iff.mp read
    refine ⟨congrArg (quote :: ·) (literalBody?_append parts), by simp, ?_⟩
    simp [text?, TokenKind.spelling]
  · simp at read

theorem mark?_of (cs : List Char) : ∀ r ∈ mark? cs, Reading.Of cs r := by
  intro r read
  obtain ⟨⟨spelling, m⟩, listed, found⟩ := List.exists_of_findSome?_eq_some read
  obtain ⟨rest, fits, rfl⟩ := Option.map_eq_some_iff.mp found
  obtain ⟨_, -, same⟩ := List.mem_map.mp listed
  cases same
  refine ⟨List.append_eq_of_isPrefixOf?_eq_some fits, m.spelling_ne_nil, ?_⟩
  rintro text ⟨⟩
  rfl

theorem mem_orElse {α : Type} {a b : Option α} {x : α} (h : x ∈ (a <|> b)) : x ∈ a ∨ x ∈ b := by
  cases a with
  | none => exact Or.inr h
  | some _ => exact Or.inl h

/-- The lexeme at the front of a text is written there, and what is left follows it. -/
theorem read_of (c : Char) (cs : List Char) : Reading.Of (c :: cs) (read c cs) := by
  unfold read
  dsimp only
  generalize found : (blank? (c :: cs) <|> newline? (c :: cs) <|> comment? (c :: cs) <|>
    word? (c :: cs) <|> number? (c :: cs) <|> quoted? (c :: cs) <|> mark? (c :: cs)) = reading
  cases reading with
  | none => exact ⟨rfl, by simp, by simp [text?]⟩
  | some r =>
    change Reading.Of (c :: cs) r
    rcases mem_orElse found with blank | found
    · exact blank?_of _ r blank
    rcases mem_orElse found with newline | found
    · exact newline?_of _ r newline
    rcases mem_orElse found with comment | found
    · exact comment?_of _ r comment
    rcases mem_orElse found with word | found
    · exact word?_of _ r word
    rcases mem_orElse found with number | found
    · exact number?_of _ r number
    rcases mem_orElse found with quoted | mark
    · exact quoted?_of _ r quoted
    · exact mark?_of _ r mark

/-- The end of a text is no lexeme. -/
theorem read_ne_eof (c : Char) (cs : List Char) : (read c cs).1 ≠ .token .eof := by
  intro isEnd
  have found := read_of c cs
  have spelled := found.spelled "" (by rw [isEnd]; rfl)
  exact found.takes spelled.symm

/-! ### Marks at the front of a text -/

theorem marks_sorted : marks.Pairwise fun a b => b.1.length ≤ a.1.length := by decide +kernel

/-- Of the marks that a text begins with, the longest is read. -/
theorem mark?_longest {cs : List Char} {r : Reading} (read : mark? cs = some r) :
    ∃ m : Mark, r.1 = .token (.mark m) ∧ m.spelling.toList <+: cs ∧
      ∀ m' : Mark, m'.spelling.toList <+: cs →
        m'.spelling.toList.length ≤ m.spelling.toList.length := by
  obtain ⟨before, ⟨spelling, m⟩, behind, split, found, earlier⟩ :=
    List.findSome?_eq_some_iff.mp read
  obtain ⟨rest, fits, rfl⟩ := Option.map_eq_some_iff.mp found
  have listed : (spelling, m) ∈ marks := by simp [split]
  obtain ⟨_, -, parts⟩ := List.mem_map.mp listed
  cases parts
  refine ⟨m, rfl, ⟨rest, List.append_eq_of_isPrefixOf?_eq_some fits⟩, fun m' ⟨rest', fits'⟩ => ?_⟩
  have listed' : (m'.spelling.toList, m') ∈ marks := List.mem_map_of_mem m'.mem_all
  have sorted := marks_sorted
  rw [split] at listed' sorted
  rcases List.mem_append.mp listed' with mem | mem
  · -- Had it stood before `m`, it would have been read.
    have unread := earlier _ mem
    simp [List.isPrefixOf?_eq_some_iff_append_eq.mpr fits'] at unread
  · rcases List.mem_cons.mp mem with same | mem
    · exact Nat.le_of_eq (congrArg List.length (Prod.mk.inj same).1)
    · exact List.rel_of_pairwise_cons (List.pairwise_append.mp sorted).2.1 mem

theorem mark?_isSome {cs : List Char} {m : Mark} (fits : m.spelling.toList <+: cs) :
    (mark? cs).isSome := by
  obtain ⟨rest, fits⟩ := fits
  refine List.findSome?_isSome_iff.mpr ⟨_, List.mem_map_of_mem m.mem_all, ?_⟩
  simp [List.isPrefixOf?_eq_some_iff_append_eq.mpr fits]

/-- A mark is read where no other goes on as the text does. -/
theorem mark?_of_ends {m : Mark} {c : Char} {rest : List Char}
    (ends : ∀ m' : Mark, ¬ m.spelling.toList ++ [c] <+: m'.spelling.toList) :
    (mark? (m.spelling.toList ++ c :: rest)).map (·.1) = some (.token (.mark m)) := by
  have here : m.spelling.toList <+: m.spelling.toList ++ c :: rest := List.prefix_append _ _
  obtain ⟨r, read⟩ := Option.isSome_iff_exists.mp (mark?_isSome here)
  obtain ⟨m', isMark, fits, longest⟩ := mark?_longest read
  have further : m.spelling.toList ++ [c] <+: m.spelling.toList ++ c :: rest := ⟨rest, by simp⟩
  have short : ¬ m.spelling.toList.length < m'.spelling.toList.length := fun long =>
    ends m' (List.prefix_of_prefix_length_le further fits (by simpa using Nat.succ_le_of_lt long))
  have same : m.spelling.toList = m'.spelling.toList :=
    (List.prefix_of_prefix_length_le here fits (longest m here)).eq_of_length_le (by omega)
  rw [read, Option.map_some, isMark, Mark.spelling_injective (String.toList_inj.mp same)]

/-- A mark is not read where another one is spelled with the next character too. -/
theorem mark?_of_goes_on {m m' : Mark} {c : Char} {rest : List Char}
    (goesOn : m'.spelling.toList = m.spelling.toList ++ [c]) :
    (mark? (m.spelling.toList ++ c :: rest)).map (·.1) ≠ some (.token (.mark m)) := by
  intro read
  obtain ⟨r, found, isMark⟩ := Option.map_eq_some_iff.mp read
  obtain ⟨m'', isMark', -, longest⟩ := mark?_longest found
  cases isMark.symm.trans isMark'
  have long := longest m' ⟨rest, by simp [goesOn]⟩
  simp only [goesOn, List.length_append, List.length_singleton] at long
  omega

/-- Where nothing blank and no comment begins, a word, a number, a literal or a mark is read. -/
theorem read_of_inLine {c : Char} (visible : isBlank c = false) (inLine : isLineEnd c = false)
    {cs : List Char} (noComment : comment? (c :: cs) = none) :
    read c cs = (word? (c :: cs) <|> number? (c :: cs) <|> quoted? (c :: cs) <|>
      mark? (c :: cs)).getD (.stray (strayFault c), [c], cs) := by
  have blank : blank? (c :: cs) = none := by
    simp [blank?, List.span_eq_takeWhile_dropWhile, visible]
  have newline : newline? (c :: cs) = none := by
    unfold newline?
    split <;> simp_all [isLineEnd]
  simp [read, blank, newline, noComment]

theorem comment?_of_ne {c : Char} (noSlash : c ≠ '/') (cs : List Char) :
    comment? (c :: cs) = none := by
  unfold comment?
  split <;> simp_all

/-- Where nothing blank, no comment and no name begins, a number, a literal or a mark is read. -/
theorem read_of_visible {c : Char} (visible : isBlank c = false) (inLine : isLineEnd c = false)
    (noSlash : c ≠ '/') (noName : startsName c = false) (cs : List Char) :
    read c cs = (number? (c :: cs) <|> quoted? (c :: cs) <|> mark? (c :: cs)).getD
      (.stray (strayFault c), [c], cs) := by
  have word : word? (c :: cs) = none := by simp [word?, noName]
  simp [read_of_inLine visible inLine (comment?_of_ne noSlash cs), word]

/-- Whether nothing but a mark begins with this character. -/
def isMarkOnly (c : Char) : Bool :=
  !isBlank c && !isLineEnd c && !startsName c && !c.isDigit &&
    !(['/', '.', '"', '\x60', '\''].contains c)

theorem read_of_isMarkOnly {c : Char} (h : isMarkOnly c) (cs : List Char) :
    read c cs = (mark? (c :: cs)).getD (.stray .invalidToken, [c], cs) := by
  simp only [isMarkOnly, Bool.and_eq_true, Bool.not_eq_true', List.contains_eq_mem,
    decide_eq_false_iff_not, List.mem_cons, List.not_mem_nil, or_false, not_or] at h
  obtain ⟨⟨⟨⟨visible, inLine⟩, noName⟩, noDigit⟩, noSlash, noPoint, noQuote⟩ := h
  have number : number? (c :: cs) = none := by
    have other : startsNumber (c :: cs) = false := by
      unfold startsNumber
      split <;> simp_all
    simp [number?, other]
  have quoted : quoted? (c :: cs) = none := by
    have other : literalBody? c cs = none := by
      unfold literalBody?
      split <;> simp_all
    simp [quoted?, other]
  simp [read_of_visible visible inLine noSlash noName, number, quoted, strayFault, noQuote]

/-! ### All lexemes -/

theorem bytes_append (cs ds : List Char) : bytes (cs ++ ds) = bytes cs + bytes ds := by
  induction cs with
  | nil => simp [bytes]
  | cons c cs ih => simp only [List.cons_append, bytes, ih, Nat.add_assoc]

theorem bytes_eq (cs : List Char) : bytes cs = (String.ofList cs).utf8ByteSize := by
  induction cs with
  | nil => rfl
  | cons c cs ih =>
    rw [bytes, ih, ← List.singleton_append, String.ofList_append, String.utf8ByteSize_append,
      ← String.singleton_eq_ofList, String.utf8ByteSize_singleton]

theorem bytes_toList (src : String) : bytes src.toList = src.utf8ByteSize := by
  rw [bytes_eq, String.ofList_toList]

theorem bytes_cons_pos (c : Char) (cs : List Char) : 0 < bytes (c :: cs) :=
  Nat.add_pos_left c.utf8Size_pos _

/-- Behind `pos`, every lexeme lies within the text. -/
theorem readAll_within {pos fuel n : Nat} {cs : List Char} (size : pos + bytes cs = n) :
    ∀ l ∈ readAll pos fuel cs, l.2.Within n := by
  induction fuel generalizing pos cs with
  | zero => simp [readAll]
  | succ fuel ih =>
    cases cs with
    | nil => simp [readAll]
    | cons c cs =>
      have cover := congrArg bytes (read_of c cs).parts
      have here := bytes_cons_pos c cs
      unfold readAll
      generalize read c cs = reading at cover ⊢
      obtain ⟨lexeme, taken, rest⟩ := reading
      rw [bytes_append] at cover
      dsimp only at cover ⊢
      refine List.forall_mem_cons.mpr ⟨⟨?_, ?_⟩, ih ?_⟩
      · change pos < n
        omega
      · change pos + bytes taken ≤ n
        omega
      · omega

theorem all_within (src : String) : ∀ l ∈ all src.toList, l.2.Within src.utf8ByteSize := by
  rw [← bytes_toList]
  unfold all
  split
  · rename_i c cs text
    rw [text]
    split
    · rw [List.forall_mem_cons]
      refine ⟨⟨bytes_cons_pos c cs, ?_⟩, readAll_within ?_⟩
      · simp [bytes]
      · simp [bytes]
    · exact readAll_within (Nat.zero_add _)
  · simp

theorem readAll_ne_eof {pos fuel : Nat} {cs : List Char} :
    ∀ l ∈ readAll pos fuel cs, l.1 ≠ .token .eof := by
  induction fuel generalizing pos cs with
  | zero => simp [readAll]
  | succ fuel ih =>
    cases cs with
    | nil => simp [readAll]
    | cons c cs => exact List.forall_mem_cons.mpr ⟨read_ne_eof c cs, ih⟩

theorem all_ne_eof (cs : List Char) : ∀ l ∈ all cs, l.1 ≠ .token .eof := by
  unfold all
  split
  · split
    · exact List.forall_mem_cons.mpr ⟨nofun, readAll_ne_eof⟩
    · exact readAll_ne_eof
  · simp

end Lexeme

/-! ### Tokens and comments -/

/-- Whether a token has characters of its own: the end of the source has none, and a semicolon may
have none. -/
def TokenKind.isSolid (k : TokenKind) : Bool := k != .mark .semi && k != .eof

theorem TokenKind.isSolid_mark {m : Mark} (h : m ≠ .semi) : (TokenKind.mark m).isSolid := by
  simp [isSolid, h]

namespace Scan

theorem tokensOf_within {size n : Nat} {open? : Bool} {lexemes : List (Lexeme × Span)}
    (h : ∀ l ∈ lexemes, l.2.Within n) :
    ∀ t ∈ tokensOf size open? lexemes, t.kind.isSolid → t.span.Within n := by
  induction lexemes generalizing open? with
  | nil =>
    unfold tokensOf
    split <;> simp [autoSemi, TokenKind.isSolid]
  | cons l rest ih =>
    obtain ⟨lexeme, span⟩ := l
    obtain ⟨here, behind⟩ := List.forall_mem_cons.mp h
    unfold tokensOf
    split
    · exact List.forall_mem_cons.mpr ⟨fun _ => here, ih behind⟩
    · exact List.forall_mem_cons.mpr ⟨fun _ => here, ih behind⟩
    · exact List.forall_mem_cons.mpr ⟨fun _ => here, ih behind⟩
    · split
      · exact List.forall_mem_cons.mpr ⟨by simp [autoSemi, TokenKind.isSolid], ih behind⟩
      · exact ih behind

theorem tokens_within (src : String) :
    ∀ t ∈ (ofSource src).tokens, t.kind.isSolid → t.span.Within src.utf8ByteSize :=
  tokensOf_within (Lexeme.all_within src)

theorem tokensOf_ne_eof {size : Nat} {open? : Bool} {lexemes : List (Lexeme × Span)}
    (h : ∀ l ∈ lexemes, l.1 ≠ .token .eof) : ∀ t ∈ tokensOf size open? lexemes, t.kind ≠ .eof := by
  induction lexemes generalizing open? with
  | nil =>
    unfold tokensOf
    split <;> simp [autoSemi]
  | cons l rest ih =>
    obtain ⟨lexeme, span⟩ := l
    obtain ⟨here, behind⟩ := List.forall_mem_cons.mp h
    unfold tokensOf
    split
    · exact List.forall_mem_cons.mpr ⟨fun same => here (congrArg Lexeme.token same), ih behind⟩
    · exact List.forall_mem_cons.mpr ⟨nofun, ih behind⟩
    · exact List.forall_mem_cons.mpr ⟨nofun, ih behind⟩
    · split
      · exact List.forall_mem_cons.mpr ⟨nofun, ih behind⟩
      · exact ih behind

theorem tokens_ne_eof (src : String) : ∀ t ∈ (ofSource src).tokens, t.kind ≠ .eof :=
  tokensOf_ne_eof (Lexeme.all_ne_eof src.toList)

theorem comments_within (src : String) :
    ∀ c ∈ (ofSource src).comments, c.span.Within src.utf8ByteSize := by
  intro c mem
  obtain ⟨⟨lexeme, span⟩, found, isComment⟩ := List.mem_filterMap.mp mem
  have within := Lexeme.all_within src _ found
  unfold commentOf? at isComment
  split at isComment
  · rename_i parts
    cases parts
    cases isComment
    exact within
  · rename_i parts
    cases parts
    cases isComment
    exact within
  · simp at isComment

end Scan

end GoLayout
