import GoLayout.Proofs.Token.Comment
import GoLayout.Proofs.Token.NumberGrammar

/-!
Numbers in a source. What the grammar of numbers derives is read as one token of the right kind, up
to the end of the text or to the points of an ellipsis: no part of a number begins with what the
part before it could take along.
-/

namespace GoLayout

namespace Number

/-! ### What a part begins with -/

/-- Whether a part behind the digits of a number, or what follows the number, begins so. -/
def startsPart (hex : Bool) (c : Char) : Bool := c == '.' || isExponentMark hex c || c == 'i'

section Heads

variable {hex : Bool} {c : Char}

theorem startsPart_cases (h : startsPart hex c) :
    c = '.' ∨ c = 'p' ∨ c = 'P' ∨ hex = false ∧ (c = 'e' ∨ c = 'E') ∨ c = 'i' := by
  simpa [startsPart, isExponentMark, or_assoc] using h

/-- The suffix and the points of an ellipsis begin like a part of every number. -/
theorem startsPart_last (h : c = 'i' ∨ c = '.') : startsPart hex c := by
  rcases h with rfl | rfl <;> simp [startsPart]

theorem isDigit_of_startsPart (h : startsPart hex c) : isDigit hex c = false := by
  rcases startsPart_cases h with rfl | rfl | rfl | ⟨rfl, rfl | rfl⟩ | rfl
  all_goals first | decide | cases hex <;> decide

theorem isBaseMark_of_startsPart (h : startsPart hex c) : isBaseMark c = false := by
  rcases startsPart_cases h with rfl | rfl | rfl | ⟨-, rfl | rfl⟩ | rfl
  all_goals decide

theorem isBaseMark_of_isDigit (h : isDigit false c) : isBaseMark c = false := by
  have digit : c.isDigit ∨ c = '_' := by simpa [isDigit] using h
  have other (mark : Char) (noDigit : mark.isDigit = false) (noSeparator : mark ≠ '_') : c ≠ mark := by
    rintro rfl
    simp [noDigit, noSeparator] at digit
  simp [isBaseMark, isHexMark, other _ _ _]

theorem IsMark.isExponentMark (h : IsMark hex c) : isExponentMark hex c := by
  rcases h with ⟨rfl | rfl⟩ | ⟨rfl | rfl⟩ <;> decide

theorem forall_head_append {P : Char → Prop} {cs rest : List Char} (first : ∀ c ∈ cs.head?, P c)
    (behind : ∀ c ∈ rest.head?, P c) : ∀ c ∈ (cs ++ rest).head?, P c := by
  cases cs with
  | nil => exact behind
  | cons c cs => exact first

end Heads

/-- What may follow a number: nothing, or two points if the number does not end with one. -/
def Follows (number rest : List Char) : Prop :=
  rest = [] ∨ number.getLast? ≠ some '.' ∧ ∃ cs, rest = '.' :: '.' :: cs

section Heads

variable {p : Parts} {number rest : List Char}

theorem Parts.Fit.head_suffix (fit : p.Fit) (follows : Follows number rest) :
    ∀ c ∈ (p.suffix ++ rest).head?, c = 'i' ∨ c = '.' := by
  refine forall_head_append ?_ ?_
  · rcases fit.suffix with none | some
    · simp [none]
    · simp [some]
  · rcases follows with rfl | ⟨-, cs, rfl⟩ <;> simp

theorem Parts.Fit.head_exponent (fit : p.Fit) (follows : Follows number rest) :
    ∀ c ∈ (p.exponent ++ (p.suffix ++ rest)).head?, startsPart p.hex c := by
  refine forall_head_append ?_ fun c mem => startsPart_last (fit.head_suffix follows c mem)
  rcases fit.exponent with none | some
  · simp [none]
  · obtain ⟨mark, cs, marked, isMark⟩ := some.exists_mark
    simp [marked, startsPart, isMark.isExponentMark]

theorem Parts.Fit.head_fraction (fit : p.Fit) (follows : Follows number rest) :
    ∀ c ∈ (p.fraction ++ (p.exponent ++ (p.suffix ++ rest))).head?, startsPart p.hex c := by
  refine forall_head_append ?_ (fit.head_exponent follows)
  rcases fit.fraction with none | ⟨ds, some, -⟩
  · simp [none]
  · simp [some, startsPart]

end Heads

/-! ### Reading part by part -/

section Read

variable {hex : Bool} {ds rest : List Char}

theorem more_of_eq {part : List Char → Split} {taken next rest : List Char}
    (h : part (next ++ rest) = (next, rest)) :
    more part (taken, next ++ rest) = (taken ++ next, rest) := by
  simp only [more, h]

theorem digits_append (all : ∀ c ∈ ds, isDigit hex c)
    (stops : ∀ c ∈ rest.head?, isDigit hex c = false) : digits hex (ds ++ rest) = (ds, rest) := by
  have behind : rest.takeWhile (isDigit hex) = [] ∧ rest.dropWhile (isDigit hex) = rest := by
    cases rest with
    | nil => simp
    | cons c cs => simp [stops c rfl]
  rw [digits, List.span_eq_takeWhile_dropWhile, List.takeWhile_append_of_pos all,
    List.dropWhile_append_of_pos all, behind.1, behind.2, List.append_nil]

/-- Digits without a mark behind a zero at their beginning are all there is. -/
theorem base_append (all : ∀ c ∈ ds, isDigit false c)
    (stops : ∀ c ∈ rest.head?, startsPart false c) :
    base (ds ++ rest) = ([], ds ++ rest) ∧ isHex (ds ++ rest) = false := by
  have second : ∀ x cs, ds ++ rest = '0' :: x :: cs → isBaseMark x = false := by
    intro x cs same
    cases ds with
    | nil =>
      subst same
      exact absurd (stops '0' rfl) (by decide)
    | cons d ds =>
      obtain ⟨-, same⟩ := List.cons.inj same
      obtain ⟨-, all⟩ := List.forall_mem_cons.mp all
      refine forall_head_append (P := (isBaseMark · = false)) (fun c mem => ?_) (fun c mem => ?_) x
        (congrArg List.head? same)
      · exact isBaseMark_of_isDigit (all c (List.mem_of_mem_head? mem))
      · exact isBaseMark_of_startsPart (stops c mem)
  constructor
  · unfold base
    split
    · rename_i x cs same
      simp [same, second x cs same]
    · rfl
  · unfold isHex
    split
    · rename_i x cs same
      have noMark := second x cs same
      simp only [isBaseMark, Bool.or_eq_false_iff] at noMark
      exact noMark.1.1.1.1
    · rfl

theorem Parts.Fit.base_text {p : Parts} (fit : p.Fit) {number : List Char}
    (follows : Follows number rest) :
    Number.base (p.text ++ rest) =
        (p.base, p.whole ++ (p.fraction ++ (p.exponent ++ (p.suffix ++ rest)))) ∧
      isHex (p.text ++ rest) = p.hex := by
  have heads := fit.head_fraction follows
  rcases fit.base with ⟨none, notHex⟩ | ⟨mark, some, isMark, isHex⟩
  · have all := fit.whole
    rw [notHex] at all heads
    simpa [text, none, notHex] using base_append all heads
  · simp [text, some, Number.base, Number.isHex, isMark, isHex]

theorem Parts.Fit.digits_whole {p : Parts} (fit : p.Fit) {number : List Char}
    (follows : Follows number rest) :
    digits p.hex (p.whole ++ (p.fraction ++ (p.exponent ++ (p.suffix ++ rest)))) =
      (p.whole, p.fraction ++ (p.exponent ++ (p.suffix ++ rest))) :=
  digits_append fit.whole fun c mem => isDigit_of_startsPart (fit.head_fraction follows c mem)

theorem fraction_nil (h : ∀ cs, rest = '.' :: cs → ∃ cs', cs = '.' :: cs') :
    fraction hex rest = ([], rest) := by
  unfold fraction
  split
  · rfl
  · rename_i cs noPoint
    obtain ⟨cs', rfl⟩ := h cs rfl
    exact absurd rfl (noPoint cs')
  · rfl

theorem fraction_cons (all : ∀ c ∈ ds, isDigit hex c)
    (stops : ∀ c ∈ rest.head?, isDigit hex c = false)
    (noPoint : ∀ cs, ds ++ rest ≠ '.' :: cs) :
    fraction hex ('.' :: (ds ++ rest)) = ('.' :: ds, rest) := by
  unfold fraction
  split
  · rename_i cs same
    exact absurd (List.cons.inj same).2 (noPoint cs)
  · rename_i cs _ same
    obtain rfl := (List.cons.inj same).2
    rw [digits_append all stops]
  · rename_i other
    exact absurd rfl (other (ds ++ rest))

/-- Where a point follows the fraction, it is the first of two, and the fraction ends with a
digit. -/
theorem Parts.Fit.fraction_append {p : Parts} (fit : p.Fit) (follows : Follows p.text rest) :
    Number.fraction p.hex (p.fraction ++ (p.exponent ++ (p.suffix ++ rest))) =
      (p.fraction, p.exponent ++ (p.suffix ++ rest)) := by
  have point : ∀ cs, p.exponent ++ (p.suffix ++ rest) = '.' :: cs →
      p.exponent = [] ∧ p.suffix = [] ∧ rest = '.' :: cs := by
    intro cs same
    rcases fit.exponent with noExponent | exponent
    · rcases fit.suffix with noSuffix | suffix
      · exact ⟨noExponent, noSuffix, by simpa [noExponent, noSuffix] using same⟩
      · simp [noExponent, suffix] at same
    · obtain ⟨mark, marked, eq, isMark⟩ := exponent.exists_mark
      rw [eq, List.cons_append] at same
      obtain ⟨rfl, -⟩ := List.cons.inj same
      have marks := isMark.isExponentMark
      simp [isExponentMark] at marks
  rcases fit.fraction with none | ⟨ds, some, all⟩
  · rw [none]
    refine fraction_nil fun cs same => ?_
    obtain ⟨-, -, same⟩ := point cs same
    rcases follows with rfl | ⟨-, cs', rfl⟩
    · nomatch same
    · exact ⟨cs', (List.cons.inj same).2.symm⟩
  · rw [some]
    refine fraction_cons all (fun c mem => ?_) fun cs same => ?_
    · exact isDigit_of_startsPart (fit.head_exponent follows c mem)
    · cases ds with
      | cons d ds =>
        obtain ⟨rfl, -⟩ := List.cons.inj same
        have digit := all '.' List.mem_cons_self
        rw [isDigit_of_startsPart rfl] at digit
        nomatch digit
      | nil =>
        obtain ⟨noExponent, noSuffix, same⟩ := point cs same
        rcases follows with rfl | ⟨noPoint, -⟩
        · nomatch same
        · simp [text, some, noExponent, noSuffix] at noPoint

theorem sign_digit {c : Char} (h : c.isDigit) (cs : List Char) : sign (c :: cs) = ([], c :: cs) := by
  have other : ¬ (c = '+' ∨ c = '-') := by
    rintro (rfl | rfl) <;> exact absurd h (by decide)
  simpa [sign] using other

theorem Exponent.append {cs : List Char} (h : Exponent hex cs)
    (stops : ∀ c ∈ rest.head?, isDigit false c = false) :
    exponent hex (cs ++ rest) = (cs, rest) := by
  cases h with
  | plain h digits =>
    obtain ⟨d, ds, rfl, digit⟩ := digits.exists_cons
    have taken := digits_append (digits.all covers_decimal) stops
    rw [List.cons_append] at taken
    simp [exponent, h.isExponentMark, more, sign_digit digit, taken]
  | signed h signs digits =>
    have taken := digits_append (digits.all covers_decimal) stops
    simp [exponent, h.isExponentMark, more, sign, signs, taken]

theorem exponent_nil (stops : ∀ c ∈ rest.head?, isExponentMark hex c = false) :
    exponent hex rest = ([], rest) := by
  cases rest with
  | nil => rfl
  | cons c cs => simp [exponent, stops c rfl]

theorem Parts.Fit.exponent_append {p : Parts} (fit : p.Fit) {number : List Char}
    (follows : Follows number rest) :
    Number.exponent p.hex (p.exponent ++ (p.suffix ++ rest)) = (p.exponent, p.suffix ++ rest) := by
  have heads := fit.head_suffix follows
  rcases fit.exponent with none | some
  · rw [none]
    refine exponent_nil fun c mem => ?_
    rcases heads c mem with rfl | rfl <;> simp [isExponentMark]
  · exact some.append fun c mem => isDigit_of_startsPart (startsPart_last (heads c mem))

theorem Parts.Fit.suffix_append {p : Parts} (fit : p.Fit) {number : List Char}
    (follows : Follows number rest) :
    Number.suffix (p.suffix ++ rest) = (p.suffix, rest) := by
  rcases fit.suffix with none | some
  · rcases follows with rfl | ⟨-, cs, rfl⟩ <;> simp [none, Number.suffix]
  · simp [some, Number.suffix]

/-- A number is read to its end. -/
theorem Parts.Fit.read_text {p : Parts} (fit : p.Fit) (follows : Follows p.text rest) :
    read (p.text ++ rest) = (p.text, rest) := by
  obtain ⟨ofBase, isHex⟩ := fit.base_text follows
  rw [read, ofBase, isHex, more_of_eq (fit.digits_whole follows),
    more_of_eq (fit.fraction_append follows), more_of_eq (fit.exponent_append follows),
    more_of_eq (fit.suffix_append follows)]
  simp [text]

end Read

/-! ### The kind of a number -/

section Kind

variable {hex : Bool} {c : Char} {cs : List Char}

theorem isMark_iff : IsMark hex c ↔ if hex then c = 'p' ∨ c = 'P' else c = 'e' ∨ c = 'E' := by
  constructor
  · rintro (h | h) <;> simpa using h
  · cases hex with
    | false => exact fun h => .decimal (by simpa using h)
    | true => exact fun h => .hex (by simpa using h)

theorem kind_imag (h : cs.getLast? = some 'i') : kind cs = .imag := by simp [kind, h]

/-- What tells a number with a fraction or an exponent. -/
theorem isFloatMark_iff : (c == '.' || (if hex then c == 'p' || c == 'P' else c == 'e' || c == 'E')) ↔
    c = '.' ∨ IsMark hex c := by
  rw [isMark_iff]
  cases hex <;> simp

theorem kind_float (last : cs.getLast? ≠ some 'i') (mem : c ∈ cs)
    (h : c = '.' ∨ IsMark (isHex cs) c) : kind cs = .float := by
  have marked : (cs.any fun c => c == '.' ||
      (if isHex cs then c == 'p' || c == 'P' else c == 'e' || c == 'E')) = true :=
    List.any_eq_true.mpr ⟨c, mem, isFloatMark_iff.mpr h⟩
  simp only [kind, beq_iff_eq, last, if_false, marked, if_true]

theorem kind_int (last : cs.getLast? ≠ some 'i')
    (h : ∀ c ∈ cs, ¬ (c = '.' ∨ IsMark (isHex cs) c)) : kind cs = .int := by
  have unmarked : (cs.any fun c => c == '.' ||
      (if isHex cs then c == 'p' || c == 'P' else c == 'e' || c == 'E')) = false :=
    List.any_eq_false.mpr fun c mem => isFloatMark_iff.not.mpr (h c mem)
  simp only [kind, beq_iff_eq, last, if_false, unmarked, Bool.false_eq_true]

theorem Exponent.mem (h : Exponent hex cs) :
    ∀ c ∈ cs, IsMark hex c ∨ c = '+' ∨ c = '-' ∨ isDigit hex c := by
  cases h with
  | plain isMark digits =>
    refine List.forall_mem_cons.mpr ⟨.inl isMark, fun c mem => ?_⟩
    exact .inr (.inr (.inr (digits.all covers_decimal c mem)))
  | signed isMark signs digits =>
    refine List.forall_mem_cons.mpr ⟨.inl isMark, List.forall_mem_cons.mpr ⟨?_, fun c mem => ?_⟩⟩
    · exact .inr (signs.imp_right .inl)
    · exact .inr (.inr (.inr (digits.all covers_decimal c mem)))

end Kind

namespace Parts.Fit

variable {p : Parts} (fit : p.Fit)

include fit

theorem isHex_text : isHex p.text = p.hex := by
  have ends : Follows p.text [] := .inl rfl
  simpa using (fit.base_text ends).2

theorem mem_base : ∀ c ∈ p.base, c = '0' ∨ isBaseMark c := by
  rcases fit.base with ⟨none, -⟩ | ⟨mark, some, isMark, -⟩
  · simp [none]
  · simp [some, isMark]

theorem mem_fraction : ∀ c ∈ p.fraction, c = '.' ∨ isDigit p.hex c := by
  rcases fit.fraction with none | ⟨ds, some, all⟩
  · simp [none]
  · rw [some]
    exact List.forall_mem_cons.mpr ⟨.inl rfl, fun c mem => .inr (all c mem)⟩

theorem mem_exponent : ∀ c ∈ p.exponent,
    IsMark p.hex c ∨ c = '+' ∨ c = '-' ∨ isDigit p.hex c := by
  rcases fit.exponent with none | some
  · simp [none]
  · exact some.mem

/-- Only the suffix is an `i`. -/
theorem last_ne (none : p.suffix = []) : p.text.getLast? ≠ some 'i' := by
  intro last
  have mem : 'i' ∈ p.base ++ (p.whole ++ (p.fraction ++ p.exponent)) := by
    simpa [text, none] using List.mem_of_getLast? last
  have noDigit : isDigit p.hex 'i' = false := isDigit_of_startsPart (startsPart_last (.inl rfl))
  have noMark : ¬ IsMark p.hex 'i' := by
    rw [isMark_iff]
    split <;> decide
  rcases List.mem_append.mp mem with base | mem
  · exact absurd (fit.mem_base _ base) (by decide)
  rcases List.mem_append.mp mem with whole | mem
  · simpa [noDigit] using fit.whole _ whole
  rcases List.mem_append.mp mem with fraction | exponent
  · simpa [noDigit] using fit.mem_fraction _ fraction
  · simpa [noDigit, noMark] using fit.mem_exponent _ exponent

theorem kind_text_int (fraction : p.fraction = []) (exponent : p.exponent = [])
    (suffix : p.suffix = []) : kind p.text = .int := by
  refine kind_int (fit.last_ne suffix) fun c mem marked => ?_
  rw [fit.isHex_text] at marked
  have starts : startsPart p.hex c := by
    rcases marked with rfl | isMark
    · rfl
    · simp [startsPart, isMark.isExponentMark]
  simp only [text, fraction, exponent, suffix, List.append_nil] at mem
  rcases List.mem_append.mp mem with base | whole
  · rcases fit.mem_base c base with rfl | isMark
    · exact absurd (isDigit_of_startsPart starts) (by simp [isDigit])
    · simp [isBaseMark_of_startsPart starts] at isMark
  · simpa [isDigit_of_startsPart starts] using fit.whole c whole

theorem kind_text_float (h : p.fraction ≠ [] ∨ p.exponent ≠ []) (suffix : p.suffix = []) :
    kind p.text = .float := by
  have last := fit.last_ne suffix
  have ofHex := fit.isHex_text
  rcases h with nonempty | nonempty
  · obtain ⟨ds, some, -⟩ := fit.fraction.resolve_left nonempty
    have mem : '.' ∈ p.text := by simp [text, some]
    exact kind_float last mem (.inl rfl)
  · obtain ⟨mark, cs, some, isMark⟩ := (fit.exponent.resolve_left nonempty).exists_mark
    have mem : mark ∈ p.text := by simp [text, some]
    exact kind_float last mem (.inr (ofHex ▸ isMark))

omit fit in
theorem kind_text_imag (suffix : p.suffix = ['i']) : kind p.text = .imag :=
  kind_imag (by simp [text, suffix])

end Parts.Fit

/-- A number falls into parts that tell its kind. -/
theorem IsLiteral.parts {kind : LiteralKind} {cs : List Char} (h : IsLiteral kind cs) :
    ∃ p : Parts, p.Fit ∧ p.text = cs ∧ Number.kind cs = kind := by
  cases h with
  | int h =>
    obtain ⟨p, fit, rfl, fraction, exponent, suffix⟩ := h.parts
    exact ⟨p, fit, rfl, fit.kind_text_int fraction exponent suffix⟩
  | float h =>
    obtain ⟨p, fit, rfl, nonempty, suffix⟩ := h.parts
    exact ⟨p, fit, rfl, fit.kind_text_float nonempty suffix⟩
  | imag h =>
    obtain ⟨p, fit, rfl, suffix⟩ := h.parts
    exact ⟨p, fit, rfl, Parts.Fit.kind_text_imag suffix⟩

/-- A number is read as a whole, as one of its kind. -/
theorem IsLiteral.number? {kind : LiteralKind} {cs rest : List Char} (h : IsLiteral kind cs)
    (follows : Follows cs rest) : Lexeme.number? (cs ++ rest) =
      some (.token (.literal kind (String.ofList cs)), cs, rest) := by
  obtain ⟨p, fit, rfl, ofKind⟩ := h.parts
  simp only [Lexeme.number?, startsNumber_append fit.starts, fit.read_text follows, ofKind, if_true]

end Number

/-! ### Numbers in a source -/

namespace Lexeme

theorem startsName_of_isDigit {c : Char} (h : c.isDigit) : startsName c = false := by
  have below : c.val ≤ '9'.val := by
    simp only [Char.isDigit, Bool.and_eq_true, decide_eq_true_eq] at h
    exact h.2
  have ascii : c.toNat < 0x80 :=
    Nat.lt_of_le_of_lt (UInt32.le_iff_toNat_le.mp below) (by decide)
  have noUpper : c.isUpper = false :=
    decide_eq_false fun ⟨le, _⟩ => absurd (UInt32.le_trans le below) (by decide)
  have noLower : c.isLower = false :=
    Bool.and_eq_false_imp.mpr fun le =>
      absurd (UInt32.le_trans (of_decide_eq_true le) below) (by decide)
  have noAlpha : c.isAlpha = false := Bool.or_eq_false_iff.mpr ⟨noUpper, noLower⟩
  have other : c ≠ '_' := by
    rintro rfl
    exact absurd h (by decide)
  simp [startsName, Text.isLetter, Text.inClass, ascii, noAlpha, other]

/-- Where a number begins, nothing else does. -/
theorem read_of_number? {c : Char} {cs : List Char} {r : Reading} (h : number? (c :: cs) = some r) :
    read c cs = r := by
  have first : c.isDigit ∨ c = '.' := by
    have starts : startsNumber (c :: cs) := by
      by_contra other
      simp [number?, other] at h
    by_cases point : c = '.'
    · exact .inr point
    · exact .inl (by simpa [startsNumber, point] using starts)
  have visible : isBlank c = false ∧ isLineEnd c = false ∧ c ≠ '/' ∧ startsName c = false := by
    rcases first with digit | rfl
    · have other (c' : Char) (h : c'.isDigit = false) : c ≠ c' := by
        rintro rfl
        simp [h] at digit
      simp [isBlank, isLineEnd, other _ _, startsName_of_isDigit digit]
    · decide +kernel
  obtain ⟨visible, inLine, noSlash, noName⟩ := visible
  simp [read_of_visible visible inLine noSlash noName, h]

theorem Reads.eq_nil {pos : Nat} {ls : List (Lexeme × Span)} (reads : Reads pos [] ls) : ls = [] := by
  obtain ⟨fuel, -, rfl⟩ := reads
  cases fuel <;> rfl

/-- The first lexeme of a text that begins with a number. -/
theorem all_number {kind : LiteralKind} {cs rest : List Char} (h : Number.IsLiteral kind cs)
    (follows : Number.Follows cs rest) :
    ∃ ls, all (cs ++ rest) = (.token (.literal kind (String.ofList cs)), ⟨0, bytes cs⟩) :: ls ∧
      Reads (bytes cs) rest ls := by
  have number := h.number? follows
  have starts : startsNumber (cs ++ rest) := by
    by_contra other
    simp [number?, other] at number
  cases text : cs ++ rest with
  | nil => simp [text, startsNumber] at starts
  | cons c tail =>
    rw [text] at number starts
    have noMark : c ≠ byteOrderMark := by
      rintro rfl
      simp [startsNumber, byteOrderMark] at starts
    obtain ⟨ls, lexemes, behind⟩ := (reads_all noMark tail).step (read_of_number? number)
    simp only [Nat.zero_add] at lexemes behind
    exact ⟨ls, lexemes, behind⟩

end Lexeme

/-- A number of the language is scanned as one token of its kind, without a fault, and a semicolon
follows it at the end of the source. It is the same token in front of an ellipsis, unless it ends
with a point itself. -/
theorem Scan.number_is_one_token {kind : LiteralKind} {number : String}
    (h : Number.IsLiteral kind number.toList) :
    let token : Token := ⟨.literal kind number, ⟨0, number.utf8ByteSize⟩⟩
    ofSource number = ⟨[token, autoSemi number.utf8ByteSize], [], []⟩ ∧
      (number.toList.getLast? ≠ some '.' → ofSource (number ++ "...") =
        ⟨[token, ⟨.mark .ellipsis, ⟨number.utf8ByteSize, number.utf8ByteSize + 3⟩⟩], [], []⟩) := by
  constructor
  · obtain ⟨ls, lexemes, behind⟩ := Lexeme.all_number h (.inl rfl)
    rw [behind.eq_nil, List.append_nil, String.ofList_toList, Lexeme.bytes_toList] at lexemes
    simp only [ofSource, lexemes]
    rfl
  · intro noPoint
    obtain ⟨ls, lexemes, behind⟩ := Lexeme.all_number h (.inr ⟨noPoint, ['.'], rfl⟩)
    have ellipsis : Lexeme.read '.' ['.', '.'] = (.token (.mark .ellipsis), ['.', '.', '.'], []) := by
      decide +kernel
    obtain ⟨ls', rfl, nothing⟩ := behind.step ellipsis
    rw [nothing.eq_nil, String.ofList_toList, Lexeme.bytes_toList] at lexemes
    have text : (number ++ "...").toList = number.toList ++ ['.', '.', '.'] := String.toList_append
    simp only [ofSource, text, lexemes]
    rfl

/-- A hexadecimal one, with an exponent and the suffix of an imaginary number. -/
theorem Scan.number_is_one_token_of_hex :
    Number.IsLiteral .imag "0x_1.eP-2i".toList ∧ "0x_1.eP-2i".toList.getLast? ≠ some '.' ∧
      ofSource "0x_1.eP-2i" = ⟨[⟨.literal .imag "0x_1.eP-2i", ⟨0, 10⟩⟩, autoSemi 10], [], []⟩ ∧
      ofSource "0x_1.eP-2i..." =
        ⟨[⟨.literal .imag "0x_1.eP-2i", ⟨0, 10⟩⟩, ⟨.mark .ellipsis, ⟨10, 13⟩⟩], [], []⟩ := by
  have mantissa : Number.IsHexMantissa ['_', '1', '.', 'e'] :=
    .point (.apart (.last rfl)) (.inr (.last rfl))
  have exponent : Number.Exponent true ['P', '-', '2'] :=
    .signed (.hex (.inr rfl)) (.inr rfl) (.last rfl)
  have derived : Number.IsLiteral .imag "0x_1.eP-2i".toList :=
    .imag (.float (.hex (.inl rfl) mantissa exponent))
  have noPoint : "0x_1.eP-2i".toList.getLast? ≠ some '.' := by decide
  obtain ⟨alone, before⟩ := Scan.number_is_one_token derived
  exact ⟨derived, noPoint, alone, before noPoint⟩

end GoLayout
