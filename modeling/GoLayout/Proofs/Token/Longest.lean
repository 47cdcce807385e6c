import GoLayout.Proofs.Token.Number

/-!
Which rule reads each stretch of a source. A rule tells by itself which texts it takes. Wherever
the reader stands it follows the rule that takes the longest text, and where rules take the same
text, the first of them in rank. Behind their text the rules of block comments and numbers read on.
-/

namespace GoLayout

/-- The rules that the stretches of a source are read by. -/
inductive LexRule where
  | blank | newline | lineComment | blockComment
  | keyword (k : Keyword)
  | name | number | rawString | string | rune
  | mark (m : Mark)
  | byteOrderMark
  /-- Any character in a line. -/
  | other
deriving DecidableEq

namespace LexRule

open Lexeme

/-! ### The texts that a rule takes -/

/-- What stands between these quotes on one line, where a backslash takes the character behind it
along. -/
inductive Quoted (quote : Char) : List Char → Prop
  | nil : Quoted quote []
  | plain {c : Char} {cs : List Char} (inside : c ≠ quote) (noEscape : c ≠ '\\')
      (inLine : isLineEnd c = false) (behind : Quoted quote cs) : Quoted quote (c :: cs)
  | escape {c : Char} {cs : List Char} (inLine : c ≠ '\n') (behind : Quoted quote cs) :
      Quoted quote ('\\' :: c :: cs)

/-- The rule takes this text. -/
inductive Takes : LexRule → List Char → Prop
  | blank {c : Char} {cs : List Char} (first : isBlank c) (all : ∀ d ∈ cs, isBlank d) :
      Takes .blank (c :: cs)
  | newline {c : Char} (ends : isLineEnd c) : Takes .newline [c]
  | returnNewline : Takes .newline ['\r', '\n']
  | lineComment {cs : List Char} (inLine : ∀ c ∈ cs, !isLineEnd c) :
      Takes .lineComment ('/' :: '/' :: cs)
  | blockComment : Takes .blockComment ['/', '*']
  | keyword (k : Keyword) : Takes (.keyword k) k.spelling.toList
  | name {c : Char} {cs : List Char} (first : startsName c) (all : ∀ d ∈ cs, continuesName d) :
      Takes .name (c :: cs)
  | digit {c : Char} (digit : c.isDigit) : Takes .number [c]
  | point {c : Char} (digit : c.isDigit) : Takes .number ['.', c]
  | rawString {cs : List Char} (inside : ∀ c ∈ cs, c != '\x60') :
      Takes .rawString ('\x60' :: (cs ++ ['\x60']))
  | string {cs : List Char} (inside : Quoted '"' cs) : Takes .string ('"' :: (cs ++ ['"']))
  | rune {cs : List Char} (nonempty : cs ≠ []) (inside : Quoted '\'' cs) :
      Takes .rune ('\'' :: (cs ++ ['\'']))
  | mark (m : Mark) : Takes (.mark m) m.spelling.toList
  | byteOrderMark : Takes .byteOrderMark [Lexeme.byteOrderMark]
  | other {c : Char} (inLine : c ≠ '\n') : Takes .other [c]

/-- Of the rules that take the same text, the one of highest rank is followed. -/
def rank : LexRule → Nat
  | .other => 0
  | .name => 1
  | _ => 2

/-- At the front of `src`, the rule is followed and takes this text. -/
structure Wins (src : List Char) (rule : LexRule) (taken : List Char) : Prop where
  takes : rule.Takes taken
  fits : taken <+: src
  longest : ∀ {rule' taken'}, Takes rule' taken' → taken' <+: src → taken'.length ≤ taken.length
  first : ∀ {rule'}, Takes rule' taken → rule' = rule ∨ rule'.rank < rule.rank

/-- What is read by a rule that takes the first of these texts and stands before the second. -/
def finish : LexRule → List Char → List Char → Reading
  | .blank, taken, rest => (.blank, taken, rest)
  | .newline, taken, rest => (.newline, taken, rest)
  | .lineComment, taken, rest => (.comment .line (String.ofList taken), taken, rest)
  | .blockComment, taken, rest =>
    match blockBody? rest with
    | some (body, rest) =>
      (.comment .block (String.ofList (taken ++ body)), taken ++ body, rest)
    | none => (.openComment (String.ofList (taken ++ rest)), taken ++ rest, [])
  | .keyword k, taken, rest => (.token (.keyword k), taken, rest)
  | .name, taken, rest => (.token (.name (String.ofList taken)), taken, rest)
  | .number, taken, rest =>
    let (taken, rest) := Number.read (taken ++ rest)
    (.token (.literal (Number.kind taken) (String.ofList taken)), taken, rest)
  | .rawString, taken, rest | .string, taken, rest =>
    (.token (.literal .string (String.ofList taken)), taken, rest)
  | .rune, taken, rest => (.token (.literal .rune (String.ofList taken)), taken, rest)
  | .mark m, taken, rest => (.token (.mark m), taken, rest)
  | .byteOrderMark, taken, rest => (.stray .invalidToken, taken, rest)
  | .other, taken, rest =>
    (.stray (if taken.any fun c => c == '"' || c == '\x60' || c == '\'' then .unterminatedString
      else .invalidToken), taken, rest)

/-! ### How the text of a rule begins -/

/-- What a stretch of a source begins with. -/
inductive Front where
  | blank | lineEnd | word | digit | slash | point
  | quote (c : Char)
  | sign
deriving DecidableEq

/-- What a stretch that begins with this character begins with. -/
def front (c : Char) : Front :=
  if isBlank c then .blank
  else if isLineEnd c then .lineEnd
  else if startsName c then .word
  else if c.isDigit then .digit
  else if c = '/' then .slash
  else if c = '.' then .point
  else if c = '"' ∨ c = '\x60' ∨ c = '\'' then .quote c
  else .sign

/-- The texts of the rule can begin so. -/
def BeginsWith : LexRule → Front → Prop
  | .blank, f => f = .blank
  | .newline, f => f = .lineEnd
  | .lineComment, f | .blockComment, f => f = .slash
  | .keyword _, f | .name, f => f = .word
  | .number, f => f = .digit ∨ f = .point
  | .rawString, f => f = .quote '\x60'
  | .string, f => f = .quote '"'
  | .rune, f => f = .quote '\''
  | .mark _, f => f = .slash ∨ f = .point ∨ f = .sign
  | .byteOrderMark, f => f = .sign
  | .other, _ => True

section Fronts

variable {c : Char}

theorem isLineEnd_cases (h : isLineEnd c) : c = '\n' ∨ c = '\r' := by simpa [isLineEnd] using h

theorem front_of_isBlank (h : isBlank c) : front c = .blank := by simp [front, h]

theorem front_of_isLineEnd (h : isLineEnd c) : front c = .lineEnd := by
  rcases isLineEnd_cases h with rfl | rfl <;> rfl

/-- A character with a property that no blank and no line end has is neither. -/
theorem visible_of {p : Char → Bool} (h : p c)
    (noWhite : [' ', '\t', '\x0c', '\n', '\r'].all fun d => !p d) :
    isBlank c = false ∧ isLineEnd c = false := by
  have other : ∀ d ∈ [' ', '\t', '\x0c', '\n', '\r'], c ≠ d := by
    rintro d mem rfl
    have fails := List.all_eq_true.mp noWhite c mem
    rw [h] at fails
    nomatch fails
  exact ⟨by simp [isBlank, other], by simp [isLineEnd, other]⟩

theorem visible_of_startsName (h : startsName c) : isBlank c = false ∧ isLineEnd c = false :=
  visible_of h (by decide)

theorem front_of_startsName (h : startsName c) : front c = .word := by
  simp [front, visible_of_startsName h, h]

theorem front_of_isDigit (h : c.isDigit) : front c = .digit := by
  have visible := visible_of (p := Char.isDigit) h (by decide)
  simp [front, visible, startsName_of_isDigit h, h]

end Fronts

theorem front_keyword (k : Keyword) : k.spelling.toList.head?.map front = some .word := by
  cases k <;> decide

theorem front_mark (m : Mark) : m.spelling.toList.head?.map front = some .slash ∨
    m.spelling.toList.head?.map front = some .point ∨
    m.spelling.toList.head?.map front = some .sign := by
  cases m <;> decide

section

variable {rule : LexRule} {taken cs : List Char} {c : Char}

/-- What a rule takes begins as its texts can. -/
theorem Takes.head (takes : Takes rule taken) : ∃ f, taken.head?.map front = some f ∧
    rule.BeginsWith f := by
  cases takes with
  | blank first all => exact ⟨_, rfl, front_of_isBlank first⟩
  | newline ends => exact ⟨_, rfl, front_of_isLineEnd ends⟩
  | returnNewline => exact ⟨_, rfl, rfl⟩
  | lineComment inLine => exact ⟨_, rfl, (by decide : front '/' = .slash)⟩
  | blockComment => exact ⟨_, rfl, (by decide : front '/' = .slash)⟩
  | keyword k => exact ⟨_, front_keyword k, rfl⟩
  | name first all => exact ⟨_, rfl, front_of_startsName first⟩
  | digit digit => exact ⟨_, rfl, .inl (front_of_isDigit digit)⟩
  | point digit => exact ⟨_, rfl, .inr (by decide)⟩
  | rawString inside => exact ⟨_, rfl, (by decide : front '\x60' = .quote '\x60')⟩
  | string inside => exact ⟨_, rfl, (by decide : front '"' = .quote '"')⟩
  | rune nonempty inside => exact ⟨_, rfl, (by decide : front '\'' = .quote '\'')⟩
  | mark m =>
    rcases front_mark m with slash | point | sign
    · exact ⟨_, slash, .inl rfl⟩
    · exact ⟨_, point, .inr (.inl rfl)⟩
    · exact ⟨_, sign, .inr (.inr rfl)⟩
  | byteOrderMark => exact ⟨_, rfl, (by decide +kernel : front Lexeme.byteOrderMark = .sign)⟩
  | other inLine => exact ⟨_, rfl, trivial⟩

theorem Takes.ne_nil (takes : Takes rule taken) : taken ≠ [] := by
  rintro rfl
  obtain ⟨f, none, -⟩ := takes.head
  simp at none

theorem head?_of_fits (fits : taken <+: c :: cs) (ne : taken ≠ []) : taken.head? = some c := by
  rcases List.prefix_cons_iff.mp fits with rfl | ⟨taken', rfl, -⟩
  · exact absurd rfl ne
  · rfl

/-- At the front of a text, only rules are followed whose texts can begin like it. -/
theorem Takes.begins (takes : Takes rule taken) (fits : taken <+: c :: cs) :
    rule.BeginsWith (front c) := by
  obtain ⟨f, first, begins⟩ := takes.head
  rw [head?_of_fits fits takes.ne_nil] at first
  cases first
  exact begins

end

/-! ### Rules that win -/

section Wins

variable {src taken : List Char} {rule : LexRule}

/-- A rule wins against those that take something shorter or are lower in rank. -/
theorem Wins.of_contenders (takes : Takes rule taken) (fits : taken <+: src)
    (ranked : 0 < rule.rank)
    (contend : ∀ {rule' taken'}, Takes rule' taken' → taken' <+: src → rule' ≠ .other →
      taken'.length < taken.length ∨
        taken'.length ≤ taken.length ∧ (rule' = rule ∨ rule'.rank < rule.rank)) :
    Wins src rule taken where
  takes := takes
  fits := fits
  longest := by
    intro rule' taken' takes' fits'
    by_cases isOther : rule' = .other
    · subst isOther
      cases takes'
      exact List.length_pos_iff.mpr takes.ne_nil
    · rcases contend takes' fits' isOther with short | ⟨short, -⟩
      · exact short.le
      · exact short
  first := by
    intro rule' takes'
    by_cases isOther : rule' = .other
    · subst isOther
      exact .inr ranked
    · rcases contend takes' fits isOther with short | ⟨-, ranks⟩
      · exact absurd short (lt_irrefl _)
      · exact ranks

theorem Wins.of_none {c : Char} {cs : List Char} (inLine : c ≠ '\n')
    (none : ∀ {rule' taken'}, Takes rule' taken' → taken' <+: c :: cs → rule' = .other) :
    Wins (c :: cs) .other [c] where
  takes := .other inLine
  fits := ⟨cs, rfl⟩
  longest := by
    intro rule' taken' takes' fits'
    cases none takes' fits'
    cases takes'
    exact le_rfl
  first := by
    intro rule' takes'
    exact .inl (none takes' ⟨cs, rfl⟩)

/-- No two rules win at the front of the same text. -/
theorem Wins.unique {rule' : LexRule} {taken' : List Char} (wins : Wins src rule taken)
    (wins' : Wins src rule' taken') : rule = rule' ∧ taken = taken' := by
  have long := wins'.longest wins.takes wins.fits
  have long' := wins.longest wins'.takes wins'.fits
  have same : taken = taken' :=
    (List.prefix_of_prefix_length_le wins.fits wins'.fits long).eq_of_length
      (Nat.le_antisymm long long')
  subst same
  refine ⟨?_, rfl⟩
  rcases wins.first wins'.takes with same | below
  · exact same.symm
  · rcases wins'.first wins.takes with same | below'
    · exact same
    · exact absurd below (lt_asymm below')

end Wins

/-- A rule wins at the front of the text, and the reader follows it. -/
def Followed (c : Char) (cs : List Char) : Prop :=
  ∃ rule taken rest, c :: cs = taken ++ rest ∧ Wins (c :: cs) rule taken ∧
    read c cs = rule.finish taken rest

/-! ### Blanks, line ends and words -/

theorem fits_takeWhile {p : Char → Bool} {c d : Char} {ds cs : List Char}
    (fits : d :: ds <+: c :: cs) (all : ∀ e ∈ ds, p e) : d :: ds <+: c :: cs.takeWhile p := by
  obtain ⟨rfl, rest, rfl⟩ := List.cons_prefix_cons.mp fits
  rw [List.takeWhile_append_of_pos all]
  exact ⟨rest.takeWhile p, rfl⟩

theorem takeWhile_fits (p : Char → Bool) (c : Char) (cs : List Char) :
    c :: cs.takeWhile p <+: c :: cs :=
  List.cons_prefix_cons.mpr ⟨rfl, List.takeWhile_prefix p⟩

theorem length_lt_of_ne {taken taken' : List Char} (fits : taken' <+: taken) (ne : taken' ≠ taken) :
    taken'.length < taken.length :=
  lt_of_le_of_ne fits.length_le fun same => ne (fits.eq_of_length same)

theorem keyword_continues (k : Keyword) :
    ∃ c cs, k.spelling.toList = c :: cs ∧ ∀ d ∈ cs, continuesName d := by
  have letters : k.spelling.toList.all continuesName := by cases k <;> decide
  obtain ⟨c, cs, spelled⟩ : ∃ c cs, k.spelling.toList = c :: cs := by
    cases k <;> exact ⟨_, _, rfl⟩
  rw [spelled, List.all_cons, Bool.and_eq_true, List.all_eq_true] at letters
  exact ⟨c, cs, spelled, letters.2⟩

section

variable {c : Char} (cs : List Char)

theorem followed_of_isBlank (h : isBlank c) : Followed c cs := by
  refine ⟨.blank, c :: cs.takeWhile isBlank, cs.dropWhile isBlank, by simp, ?_, ?_⟩
  · refine .of_contenders (.blank h fun d mem => List.mem_takeWhile_imp mem)
      (takeWhile_fits _ _ _) (by decide) fun takes fits noOther => .inr ?_
    have begins := takes.begins fits
    rw [front_of_isBlank h] at begins
    cases takes <;> simp only [BeginsWith, reduceCtorEq, or_self] at begins
    case blank first all => exact ⟨(fits_takeWhile fits all).length_le, .inl rfl⟩
    case other => exact absurd rfl noOther
  · simp [Lexeme.read, blank?, List.span_eq_takeWhile_dropWhile, h, finish]

theorem followed_of_isLineEnd (h : isLineEnd c) : Followed c cs := by
  by_cases pair : ∃ rest, c = '\r' ∧ cs = '\n' :: rest
  · obtain ⟨rest, rfl, rfl⟩ := pair
    refine ⟨.newline, ['\r', '\n'], rest, rfl, ?_, rfl⟩
    refine .of_contenders .returnNewline ⟨rest, rfl⟩ (by decide) fun takes fits noOther => .inr ?_
    have begins := takes.begins fits
    rw [front_of_isLineEnd h] at begins
    cases takes <;> simp only [BeginsWith, reduceCtorEq, or_self] at begins
    case newline => exact ⟨Nat.le_succ 1, .inl rfl⟩
    case returnNewline => exact ⟨le_rfl, .inl rfl⟩
    case other => exact absurd rfl noOther
  · refine ⟨.newline, [c], cs, rfl, ?_, ?_⟩
    · refine .of_contenders (.newline h) ⟨cs, rfl⟩ (by decide) fun takes fits noOther => .inr ?_
      have begins := takes.begins fits
      rw [front_of_isLineEnd h] at begins
      cases takes <;> simp only [BeginsWith, reduceCtorEq, or_self] at begins
      case newline => exact ⟨le_rfl, .inl rfl⟩
      case returnNewline =>
        obtain ⟨rest, same⟩ := fits
        cases same
        exact absurd ⟨rest, rfl, rfl⟩ pair
      case other => exact absurd rfl noOther
    · have visible : blank? (c :: cs) = none := by
        rcases isLineEnd_cases h with rfl | rfl <;>
          simp [blank?, List.span_eq_takeWhile_dropWhile, isBlank]
      have newline : newline? (c :: cs) = some (.newline, [c], cs) := by
        unfold newline?
        split
        · rename_i same
          cases same
          exact absurd ⟨_, rfl, rfl⟩ pair
        · rename_i same
          cases same
          rw [if_pos h]
        · rename_i none
          cases none
      simp [Lexeme.read, visible, newline, finish]

/-- Where a name begins, a keyword or a name is read. -/
theorem read_of_startsName (h : startsName c) :
    Lexeme.read c cs = (word? (c :: cs)).getD (.stray (strayFault c), [c], cs) := by
  obtain ⟨visible, inLine⟩ := visible_of_startsName h
  have noSlash : c ≠ '/' := by
    rintro rfl
    exact absurd h (by decide)
  simp [read_of_inLine visible inLine (comment?_of_ne noSlash cs), word?, h]

theorem followed_of_startsName (h : startsName c) : Followed c cs := by
  have contend {rule' : LexRule} {taken' : List Char} (takes : Takes rule' taken')
      (fits : taken' <+: c :: cs) (noOther : rule' ≠ .other) :
      taken' <+: c :: cs.takeWhile continuesName ∧
        (rule' = .name ∨ ∃ k, rule' = .keyword k ∧ taken' = k.spelling.toList) := by
    have begins := takes.begins fits
    rw [front_of_startsName h] at begins
    cases takes <;> simp only [BeginsWith, reduceCtorEq, or_self] at begins
    case keyword k =>
      obtain ⟨d, ds, spelled, all⟩ := keyword_continues k
      rw [spelled] at fits ⊢
      exact ⟨fits_takeWhile fits all, .inr ⟨k, rfl, spelled.symm⟩⟩
    case name first all => exact ⟨fits_takeWhile fits all, .inl rfl⟩
    case other => exact absurd rfl noOther
  have word : Takes .name (c :: cs.takeWhile continuesName) :=
    .name h fun d mem => List.mem_takeWhile_imp mem
  have reads := read_of_startsName cs h
  simp only [word?, h, if_true, List.span_eq_takeWhile_dropWhile, Option.getD_some] at reads
  cases isKeyword : Keyword.ofSpelling? (String.ofList (c :: cs.takeWhile continuesName)) with
  | none =>
    refine ⟨.name, c :: cs.takeWhile continuesName, cs.dropWhile continuesName, by simp, ?_, ?_⟩
    · refine .of_contenders word (takeWhile_fits _ _ _) (by decide) fun takes fits noOther => ?_
      obtain ⟨within, rfl | ⟨k, rfl, rfl⟩⟩ := contend takes fits noOther
      · exact .inr ⟨within.length_le, .inl rfl⟩
      · refine .inl (length_lt_of_ne within fun same => ?_)
        rw [← same, String.ofList_toList, Keyword.ofSpelling?_spelling] at isKeyword
        cases isKeyword
    · rw [reads, isKeyword]
      rfl
  | some k =>
    have spelled : k.spelling.toList = c :: cs.takeWhile continuesName := by
      rw [Keyword.spelling_of_ofSpelling? isKeyword, String.toList_ofList]
    refine ⟨.keyword k, c :: cs.takeWhile continuesName, cs.dropWhile continuesName, by simp,
      ?_, ?_⟩
    · refine .of_contenders (spelled ▸ .keyword k) (takeWhile_fits _ _ _) Nat.two_pos
        fun takes fits noOther => ?_
      obtain ⟨within, rfl | ⟨k', rfl, rfl⟩⟩ := contend takes fits noOther
      · exact .inr ⟨within.length_le, .inr Nat.one_lt_two⟩
      · by_cases same : k'.spelling.toList = c :: cs.takeWhile continuesName
        · rw [← same, String.ofList_toList, Keyword.ofSpelling?_spelling] at isKeyword
          cases isKeyword
          exact .inr ⟨within.length_le, .inl rfl⟩
        · exact .inl (length_lt_of_ne within same)
    · rw [reads, isKeyword]
      rfl

end

/-! ### Marks -/

/-- No mark is spelled like the beginning of a comment or of a number. -/
theorem mark_take_two (m : Mark) : m.spelling.toList.take 2 ≠ ['/', '/'] ∧
    m.spelling.toList.take 2 ≠ ['/', '*'] ∧
    ∀ d : Char, d.isDigit → m.spelling.toList.take 2 ≠ ['.', d] := by
  refine ⟨by cases m <;> decide, by cases m <;> decide, ?_⟩
  rintro d digit spelled
  have point : '.' = d := by
    revert spelled
    cases m <;> simp [Mark.spelling]
  subst point
  exact absurd digit (by decide)

/-- A mark is not longer than one character where two others stand than it is spelled with. -/
theorem mark_short {a b : Char} {m : Mark} {cs : List Char}
    (other : m.spelling.toList.take 2 ≠ [a, b])
    (fits : m.spelling.toList <+: a :: b :: cs) : m.spelling.toList.length < 2 := by
  by_contra long
  obtain ⟨rest, same⟩ := fits
  refine other ?_
  have front := congrArg (List.take 2) same
  rwa [List.take_append_of_le_length (by omega)] at front

theorem mark_ne_byteOrderMark (m : Mark) : m.spelling.toList.head? ≠ some Lexeme.byteOrderMark := by
  cases m <;> decide

/-- Where only marks and stray characters can stand, the longest mark wins. -/
theorem followed_of_marks {c : Char} {cs : List Char} (inLine : c ≠ '\n')
    (reads : Lexeme.read c cs = (mark? (c :: cs)).getD (.stray (strayFault c), [c], cs))
    (only : ∀ {rule taken}, Takes rule taken → taken <+: c :: cs →
      (∃ m, rule = .mark m) ∨ rule = .byteOrderMark ∨ rule = .other) : Followed c cs := by
  cases found : mark? (c :: cs) with
  | some r =>
    obtain ⟨m, isMark, fits, longest⟩ := mark?_longest found
    obtain ⟨lexeme, taken, rest⟩ := r
    have parts := (mark?_of _ _ found).parts
    have spelled := (mark?_of _ _ found).spelled
    dsimp only at isMark parts spelled
    subst isMark
    obtain rfl : m.spelling.toList = taken := spelled _ rfl
    refine ⟨.mark m, m.spelling.toList, rest, parts.symm, ?_, ?_⟩
    · refine .of_contenders (.mark m) fits Nat.two_pos fun takes fits' noOther => ?_
      rcases only takes fits' with ⟨m', rfl⟩ | rfl | rfl
      · cases takes
        by_cases same : m'.spelling.toList.length = m.spelling.toList.length
        · have spelled := (List.prefix_of_prefix_length_le fits' fits same.le).eq_of_length same
          cases Mark.spelling_injective (String.toList_inj.mp spelled)
          exact .inr ⟨same.le, .inl rfl⟩
        · exact .inl (lt_of_le_of_ne (longest m' fits') same)
      · cases takes
        obtain ⟨rfl, -⟩ := List.cons_prefix_cons.mp fits'
        exact absurd (head?_of_fits fits m.spelling_ne_nil) (mark_ne_byteOrderMark m)
      · exact absurd rfl noOther
    · rw [reads, found]
      rfl
  | none =>
    have noMark {m : Mark} (fits : m.spelling.toList <+: c :: cs) : False := by
      have some := mark?_isSome fits
      rw [found] at some
      cases some
    rw [found] at reads
    by_cases bom : c = Lexeme.byteOrderMark
    · subst bom
      refine ⟨.byteOrderMark, [_], cs, rfl, ?_, by rw [reads]; rfl⟩
      refine .of_contenders .byteOrderMark ⟨cs, rfl⟩ Nat.two_pos fun takes fits noOther => ?_
      rcases only takes fits with ⟨m, rfl⟩ | rfl | rfl
      · cases takes
        exact (noMark fits).elim
      · cases takes
        exact .inr ⟨le_rfl, .inl rfl⟩
      · exact absurd rfl noOther
    · refine ⟨.other, [c], cs, rfl, .of_none inLine fun takes fits => ?_, ?_⟩
      · rcases only takes fits with ⟨m, rfl⟩ | rfl | rfl
        · cases takes
          exact (noMark fits).elim
        · cases takes
          exact absurd (List.cons_prefix_cons.mp fits).1.symm bom
        · rfl
      · rw [reads]
        simp [finish, strayFault]

/-! ### Comments and numbers -/

theorem front_slash : front '/' = .slash := by decide

theorem front_point : front '.' = .point := by decide

/-- A line comment is as long as its line. -/
theorem followed_lineComment (rest : List Char) : Followed '/' ('/' :: rest) := by
  refine ⟨.lineComment, '/' :: '/' :: rest.takeWhile (!isLineEnd ·),
    rest.dropWhile (!isLineEnd ·), by simp, ?_, ?_⟩
  · have inLine : ∀ c ∈ rest.takeWhile (!isLineEnd ·), !isLineEnd c := fun c mem =>
      List.mem_takeWhile_imp (p := (!isLineEnd ·)) mem
    refine .of_contenders (.lineComment inLine)
      (List.cons_prefix_cons.mpr ⟨rfl, takeWhile_fits _ _ _⟩) Nat.two_pos
      fun takes fits noOther => ?_
    have begins := takes.begins fits
    rw [front_slash] at begins
    cases takes <;> simp only [BeginsWith, reduceCtorEq, or_self] at begins
    case lineComment inLine =>
      obtain ⟨-, fits⟩ := List.cons_prefix_cons.mp fits
      exact .inr ⟨Nat.succ_le_succ (fits_takeWhile fits inLine).length_le, .inl rfl⟩
    case blockComment => simp at fits
    case mark m =>
      have short := mark_short (mark_take_two m).1 fits
      exact .inl (short.trans_le (by simp))
    case other => exact absurd rfl noOther
  · exact read_of_comment? (by simp [comment?, List.span_eq_takeWhile_dropWhile, finish])

theorem followed_blockComment (rest : List Char) : Followed '/' ('*' :: rest) := by
  refine ⟨.blockComment, ['/', '*'], rest, rfl, ?_, ?_⟩
  · refine .of_contenders .blockComment ⟨rest, rfl⟩ Nat.two_pos fun takes fits noOther => ?_
    have begins := takes.begins fits
    rw [front_slash] at begins
    cases takes <;> simp only [BeginsWith, reduceCtorEq, or_self] at begins
    case lineComment inLine => simp at fits
    case blockComment => exact .inr ⟨le_rfl, .inl rfl⟩
    case mark m => exact .inl (mark_short (mark_take_two m).2.1 fits)
    case other => exact absurd rfl noOther
  · refine read_of_comment? ?_
    cases closed : blockBody? rest with
    | none => simp [comment?, finish, closed]
    | some parts => simp [comment?, finish, closed]

theorem followed_slash (cs : List Char) : Followed '/' cs := by
  by_cases line : ∃ rest, cs = '/' :: rest
  · obtain ⟨rest, rfl⟩ := line
    exact followed_lineComment rest
  by_cases block : ∃ rest, cs = '*' :: rest
  · obtain ⟨rest, rfl⟩ := block
    exact followed_blockComment rest
  have noComment : comment? ('/' :: cs) = none := by
    unfold comment?
    split
    · rename_i same
      cases same
      exact absurd ⟨_, rfl⟩ line
    · rename_i same
      cases same
      exact absurd ⟨_, rfl⟩ block
    · rfl
  refine followed_of_marks (by decide) ?_ fun takes fits => ?_
  · have word : word? ('/' :: cs) = none := by
      simp [word?, (by decide : startsName '/' = false)]
    have number : number? ('/' :: cs) = none := by
      simp [number?, startsNumber]
    simp [read_of_inLine (c := '/') rfl rfl noComment, word, number, quoted?, literalBody?]
  · have begins := takes.begins fits
    rw [front_slash] at begins
    cases takes <;> simp only [BeginsWith, reduceCtorEq, or_self] at begins
    case lineComment inLine =>
      obtain ⟨-, rest, rfl⟩ := List.cons_prefix_cons.mp fits
      exact absurd ⟨_, rfl⟩ line
    case blockComment =>
      obtain ⟨-, rest, rfl⟩ := List.cons_prefix_cons.mp fits
      exact absurd ⟨_, rfl⟩ block
    case mark m => exact .inl ⟨m, rfl⟩
    case other => exact .inr (.inr rfl)

theorem followed_of_isDigit {c : Char} (h : c.isDigit) (cs : List Char) : Followed c cs := by
  refine ⟨.number, [c], cs, rfl, ?_, ?_⟩
  · refine .of_contenders (.digit h) ⟨cs, rfl⟩ Nat.two_pos fun takes fits noOther => ?_
    have begins := takes.begins fits
    rw [front_of_isDigit h] at begins
    cases takes <;> simp only [BeginsWith, reduceCtorEq, or_self] at begins
    case digit => exact .inr ⟨le_rfl, .inl rfl⟩
    case point =>
      obtain ⟨rfl, -⟩ := List.cons_prefix_cons.mp fits
      exact absurd h (by decide)
    case other => exact absurd rfl noOther
  · have noPoint : c ≠ '.' := by
      rintro rfl
      exact absurd h (by decide)
    have starts : startsNumber (c :: cs) := by
      unfold startsNumber
      split <;> simp_all
    exact read_of_number? (by simp [number?, starts, finish])

theorem followed_point (cs : List Char) : Followed '.' cs := by
  by_cases digit : ∃ d rest, cs = d :: rest ∧ d.isDigit
  · obtain ⟨d, rest, rfl, digit⟩ := digit
    refine ⟨.number, ['.', d], rest, rfl, ?_, ?_⟩
    · refine .of_contenders (.point digit) ⟨rest, rfl⟩ Nat.two_pos fun takes fits noOther => ?_
      have begins := takes.begins fits
      rw [front_point] at begins
      cases takes <;> simp only [BeginsWith, reduceCtorEq, or_true, true_or] at begins
      case digit => exact .inl (by simp)
      case point => exact .inr ⟨le_rfl, .inl rfl⟩
      case mark m =>
        exact .inl (mark_short ((mark_take_two m).2.2 d digit) fits)
      case other => exact absurd rfl noOther
    · exact read_of_number? (by simp [number?, startsNumber, digit, finish])
  · have noNumber : startsNumber ('.' :: cs) = false := by
      cases cs with
      | nil => rfl
      | cons d rest => exact Bool.eq_false_iff.mpr fun isDigit => digit ⟨d, rest, rfl, isDigit⟩
    refine followed_of_marks (by decide) ?_ fun takes fits => ?_
    · simp [read_of_visible (c := '.') rfl rfl (by decide) (by decide), number?, noNumber,
        quoted?, literalBody?]
    · have begins := takes.begins fits
      rw [front_point] at begins
      cases takes <;> simp only [BeginsWith, reduceCtorEq] at begins
      case digit isDigit =>
        obtain ⟨rfl, -⟩ := List.cons_prefix_cons.mp fits
        exact absurd isDigit (by decide)
      case point isDigit =>
        obtain ⟨-, rest, rfl⟩ := List.cons_prefix_cons.mp fits
        exact absurd ⟨_, _, rfl, isDigit⟩ digit
      case mark m => exact .inl ⟨m, rfl⟩
      case other => exact .inr (.inr rfl)

/-! ### Literals in quotes -/

/-- A quoted text is read up to its closing quote. -/
theorem quotedBody?_iff {quote : Char} (noEscape : quote ≠ '\\') {cs taken rest : List Char} :
    quotedBody? quote cs = some (taken, rest) ↔
      ∃ body, taken = body ++ [quote] ∧ cs = taken ++ rest ∧ Quoted quote body := by
  constructor
  · intro h
    fun_induction quotedBody? quote cs generalizing taken rest with
    | case1 => simp at h
    | case2 c tail inLine ih =>
      obtain ⟨⟨taken', rest'⟩, closed, parts⟩ := Option.map_eq_some_iff.mp h
      cases parts
      obtain ⟨body, rfl, rfl, inside⟩ := ih closed
      exact ⟨'\\' :: c :: body, rfl, rfl, .escape inLine inside⟩
    | case3 =>
      cases h
      exact ⟨[], rfl, rfl, .nil⟩
    | case4 => simp at h
    | case5 c tail noPair inside noEnd ih =>
      obtain ⟨⟨taken', rest'⟩, closed, parts⟩ := Option.map_eq_some_iff.mp h
      cases parts
      obtain ⟨body, rfl, rfl, behind⟩ := ih closed
      simp only [Bool.or_eq_true, decide_eq_true_eq, not_or, Bool.not_eq_true] at noEnd
      exact ⟨c :: body, rfl, rfl, .plain inside noEnd.1 noEnd.2 behind⟩
    | case6 => simp at h
  · rintro ⟨body, rfl, rfl, inside⟩
    induction inside with
    | nil => simp [quotedBody?, noEscape]
    | plain inside noEscape' inLine behind ih =>
      simp only [List.cons_append]
      rw [quotedBody?.eq_2 _ _ _ (by simp [noEscape']), ih]
      simp [inside, noEscape', inLine]
    | escape inLine behind ih =>
      simp only [List.cons_append]
      rw [quotedBody?.eq_1, ih]
      simp [inLine]

theorem rawBody?_iff {cs taken rest : List Char} :
    rawBody? cs = some (taken, rest) ↔
      ∃ body, taken = body ++ ['\x60'] ∧ cs = taken ++ rest ∧ ∀ c ∈ body, c != '\x60' := by
  unfold rawBody?
  rw [List.span_eq_takeWhile_dropWhile]
  constructor
  · intro h
    split at h
    · rename_i body quote tail parts
      obtain ⟨rfl, left⟩ := Prod.mk.inj parts
      cases h
      have closing : quote = '\x60' := by
        have ends := List.head?_dropWhile_not (· != '\x60') cs
        simpa [left] using ends
      subst closing
      refine ⟨_, rfl, ?_, fun c mem => List.mem_takeWhile_imp (p := (· != '\x60')) mem⟩
      rw [List.append_assoc, List.singleton_append, ← left, List.takeWhile_append_dropWhile]
    · simp at h
  · rintro ⟨body, rfl, rfl, inside⟩
    rw [List.append_assoc, List.takeWhile_append_of_pos inside, List.dropWhile_append_of_pos inside]
    simp

/-- The kind of the literals that a rule takes, if it takes literals in quotes. -/
def quotedKind? : LexRule → Option LiteralKind
  | .rawString | .string => some .string
  | .rune => some .rune
  | _ => none

/-- A literal is read as far as a rule takes it. -/
theorem literalBody?_iff {quote : Char} {kind : LiteralKind} {cs taken rest : List Char} :
    literalBody? quote cs = some (kind, taken, rest) ↔
      ∃ rule, Takes rule (quote :: taken) ∧ rule.quotedKind? = some kind ∧ cs = taken ++ rest := by
  constructor
  · intro h
    unfold literalBody? at h
    split at h
    · obtain ⟨parts, closed, same⟩ := Option.map_eq_some_iff.mp h
      cases same
      obtain ⟨body, rfl, rfl, inside⟩ := (quotedBody?_iff (by decide)).mp closed
      exact ⟨.string, .string inside, rfl, rfl⟩
    · obtain ⟨parts, closed, same⟩ := Option.map_eq_some_iff.mp h
      cases same
      obtain ⟨body, rfl, rfl, inside⟩ := rawBody?_iff.mp closed
      exact ⟨.rawString, .rawString inside, rfl, rfl⟩
    · split at h
      · simp at h
      · rename_i nonempty
        obtain ⟨parts, closed, same⟩ := Option.map_eq_some_iff.mp h
        cases same
        obtain ⟨body, rfl, rfl, inside⟩ := (quotedBody?_iff (by decide)).mp closed
        refine ⟨.rune, .rune ?_ inside, rfl, rfl⟩
        rintro rfl
        simp at nonempty
    · simp at h
  · rintro ⟨rule, takes, ofKind, rfl⟩
    generalize same : quote :: taken = text at takes
    cases takes <;> simp only [quotedKind?, Option.some.injEq, reduceCtorEq] at ofKind <;>
      subst ofKind
    all_goals cases same
    case mpr.rawString.refl inside =>
      have closed := rawBody?_iff.mpr ⟨_, rfl, (rfl : _ = _ ++ rest), inside⟩
      simp only [literalBody?, closed, Option.map_some]
    case mpr.string.refl inside =>
      have closed := (quotedBody?_iff (by decide)).mpr ⟨_, rfl, (rfl : _ = _ ++ rest), inside⟩
      simp only [literalBody?, closed, Option.map_some]
    case mpr.rune.refl body nonempty inside =>
      have closed := (quotedBody?_iff (by decide)).mpr ⟨_, rfl, (rfl : _ = _ ++ rest), inside⟩
      have first : ((body ++ ['\'']) ++ rest).head? ≠ some '\'' := by
        cases inside with
        | nil => exact absurd rfl nonempty
        | plain inside => simpa using inside
        | escape => simp
      simp only [literalBody?, beq_iff_eq, if_neg first, closed, Option.map_some]

theorem finish_of_quotedKind? {rule : LexRule} {kind : LiteralKind}
    (h : rule.quotedKind? = some kind) (taken rest : List Char) :
    rule.finish taken rest = (.token (.literal kind (String.ofList taken)), taken, rest) := by
  cases rule <;> simp_all [quotedKind?, finish]

theorem eq_of_front_quote {rule rule' : LexRule} {c : Char} (h : rule.BeginsWith (.quote c))
    (h' : rule'.BeginsWith (.quote c)) (noOther : rule ≠ .other) (noOther' : rule' ≠ .other) :
    rule = rule' := by
  cases rule <;> cases rule' <;> simp_all [BeginsWith]

section Quote

variable {c : Char} (h : c = '"' ∨ c = '\x60' ∨ c = '\'') (cs : List Char)

include h

theorem front_of_quote : front c = .quote c := by
  rcases h with rfl | rfl | rfl <;> decide

theorem read_of_quote : Lexeme.read c cs =
    (quoted? (c :: cs) <|> mark? (c :: cs)).getD (.stray (strayFault c), [c], cs) := by
  have number : number? (c :: cs) = none := by
    rcases h with rfl | rfl | rfl <;> simp [number?, startsNumber]
  have visible : isBlank c = false ∧ isLineEnd c = false ∧ c ≠ '/' ∧ startsName c = false := by
    rcases h with rfl | rfl | rfl <;> decide
  obtain ⟨visible, inLine, noSlash, noName⟩ := visible
  simp [read_of_visible visible inLine noSlash noName, number]

/-- At a quote, a rule takes what is read as the body of a literal. -/
theorem Takes.literalBody? {rule : LexRule} {taken : List Char} (takes : Takes rule taken)
    (fits : taken <+: c :: cs) (noOther : rule ≠ .other) :
    rule.BeginsWith (.quote c) ∧ ∃ kind body rest, rule.quotedKind? = some kind ∧
      taken = c :: body ∧ Lexeme.literalBody? c cs = some (kind, body, rest) := by
  have begins := takes.begins fits
  rw [front_of_quote h] at begins
  obtain ⟨kind, ofKind⟩ : ∃ kind, rule.quotedKind? = some kind := by
    cases takes <;> simp_all [BeginsWith, quotedKind?]
  obtain ⟨rest, same⟩ := fits
  obtain ⟨d, body, rfl⟩ := List.exists_cons_of_ne_nil takes.ne_nil
  cases same
  exact ⟨begins, kind, body, rest, ofKind, rfl, literalBody?_iff.mpr ⟨rule, takes, ofKind, rfl⟩⟩

theorem noMark_of_quote : mark? (c :: cs) = none := by
  by_contra some
  obtain ⟨r, read⟩ := Option.ne_none_iff_exists'.mp some
  obtain ⟨m, -, fits, -⟩ := mark?_longest read
  have begins := (Takes.mark m).begins fits
  rw [front_of_quote h] at begins
  simp [BeginsWith] at begins

theorem followed_of_quote : Followed c cs := by
  have reads := read_of_quote h cs
  cases found : Lexeme.literalBody? c cs with
  | some parts =>
    obtain ⟨kind, body, rest⟩ := parts
    obtain ⟨rule, takes, ofKind, rfl⟩ := literalBody?_iff.mp found
    refine ⟨rule, c :: body, rest, rfl, ?_, ?_⟩
    · have noOther : rule ≠ .other := by
        rintro rfl
        cases ofKind
      refine .of_contenders takes ⟨rest, rfl⟩ ?_ fun takes' fits' noOther' => .inr ?_
      · cases rule <;> simp_all [rank, quotedKind?]
      · obtain ⟨begins, -⟩ := takes.literalBody? h _ ⟨rest, rfl⟩ noOther
        obtain ⟨begins', _, _, _, -, rfl, found'⟩ := takes'.literalBody? h _ fits' noOther'
        rw [found] at found'
        cases found'
        exact ⟨le_rfl, .inl (eq_of_front_quote begins' begins noOther' noOther)⟩
    · rw [reads, finish_of_quotedKind? ofKind]
      simp [quoted?, found]
  | none =>
    refine ⟨.other, [c], cs, rfl, .of_none ?_ fun takes fits => ?_, ?_⟩
    · rcases h with rfl | rfl | rfl <;> decide
    · by_contra noOther
      obtain ⟨-, _, _, _, -, -, found'⟩ := takes.literalBody? h cs fits noOther
      rw [found] at found'
      cases found'
    · rw [reads]
      simp [quoted?, found, noMark_of_quote h, finish, strayFault]

end Quote

/-! ### The longest text -/

theorem followed (c : Char) (cs : List Char) : Followed c cs := by
  by_cases blank : isBlank c
  · exact followed_of_isBlank cs blank
  by_cases ends : isLineEnd c
  · exact followed_of_isLineEnd cs ends
  by_cases name : startsName c
  · exact followed_of_startsName cs name
  by_cases digit : c.isDigit
  · exact followed_of_isDigit digit cs
  by_cases slash : c = '/'
  · exact slash ▸ followed_slash cs
  by_cases point : c = '.'
  · exact point ▸ followed_point cs
  by_cases quote : c = '"' ∨ c = '\x60' ∨ c = '\''
  · exact followed_of_quote quote cs
  · have sign : front c = .sign := by simp [front, blank, ends, name, digit, slash, point, quote]
    refine followed_of_marks ?_ ?_ fun takes fits => ?_
    · rintro rfl
      exact ends rfl
    · simp only [not_or] at quote
      simp [read_of_isMarkOnly (c := c) (by simp [isMarkOnly, *]), strayFault, quote]
    · have begins := takes.begins fits
      rw [sign] at begins
      cases takes <;> simp only [BeginsWith, reduceCtorEq, or_self] at begins
      case mark m => exact .inl ⟨m, rfl⟩
      case byteOrderMark => exact .inr (.inl rfl)
      case other => exact .inr (.inr rfl)

end LexRule

/-- Everywhere some rule wins, with the longest text that a rule takes there and the highest rank of
those that take it, and what is read is what this rule makes of its text. -/
theorem Lexeme.read_longest (c : Char) (cs : List Char) :
    ∃ rule taken rest, c :: cs = taken ++ rest ∧ LexRule.Wins (c :: cs) rule taken ∧
      read c cs = rule.finish taken rest :=
  LexRule.followed c cs

/-- A rule that wins is followed: no other does at the front of the same text. -/
theorem Lexeme.read_of_wins {rule : LexRule} {c : Char} {cs taken rest : List Char}
    (parts : c :: cs = taken ++ rest) (wins : LexRule.Wins (c :: cs) rule taken) :
    read c cs = rule.finish taken rest := by
  obtain ⟨rule', taken', rest', parts', wins', reads⟩ := read_longest c cs
  obtain ⟨rfl, rfl⟩ := wins.unique wins'
  obtain rfl := List.append_cancel_left (parts.symm.trans parts')
  exact reads

/-- Of a keyword and a name, the longer one is read: a name can begin like a keyword. -/
example : Lexeme.read 'g' ['o', 't'] = (.token (.name "got"), ['g', 'o', 't'], []) := by
  decide

end GoLayout
