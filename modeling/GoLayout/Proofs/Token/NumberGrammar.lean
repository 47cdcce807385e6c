import GoLayout.Proofs.Token.Lexeme

/-!
The grammar of the numbers of the language, production by production. What it derives falls into
the parts that a number is read in: a base, digits, a fraction, an exponent and a suffix.
-/

namespace GoLayout

namespace Number

/-! ### The grammar -/

def isBinaryDigit (c : Char) : Bool := c == '0' || c == '1'

def isOctalDigit (c : Char) : Bool := '0' ≤ c && c ≤ '7'

/-- Digits, with at most one separator between neighbours. -/
inductive Digits (digit : Char → Bool) : List Char → Prop where
  | last {c : Char} (h : digit c) : Digits digit [c]
  | next {c : Char} {cs : List Char} (h : digit c) (rest : Digits digit cs) : Digits digit (c :: cs)
  | apart {c : Char} {cs : List Char} (h : digit c) (rest : Digits digit cs) :
    Digits digit (c :: '_' :: cs)

/-- Digits that a separator may set off from what stands before them. -/
inductive SetOff (digit : Char → Bool) : List Char → Prop where
  | plain {ds : List Char} (h : Digits digit ds) : SetOff digit ds
  | apart {ds : List Char} (h : Digits digit ds) : SetOff digit ('_' :: ds)

/-- Digits that may be missing. -/
def DigitsOpt (digit : Char → Bool) (ds : List Char) : Prop := ds = [] ∨ Digits digit ds

inductive IsInt : List Char → Prop where
  | zero : IsInt ['0']
  | digit {c : Char} (h : c.isDigit) (notZero : c ≠ '0') : IsInt [c]
  | decimal {c : Char} {ds : List Char} (h : c.isDigit) (notZero : c ≠ '0')
      (rest : SetOff Char.isDigit ds) : IsInt (c :: ds)
  | binary {mark : Char} {ds : List Char} (h : mark = 'b' ∨ mark = 'B')
      (rest : SetOff isBinaryDigit ds) : IsInt ('0' :: mark :: ds)
  | octal {mark : Char} {ds : List Char} (h : mark = 'o' ∨ mark = 'O')
      (rest : SetOff isOctalDigit ds) : IsInt ('0' :: mark :: ds)
  /-- Octal digits behind a zero, without a mark. -/
  | legacyOctal {ds : List Char} (rest : SetOff isOctalDigit ds) : IsInt ('0' :: ds)
  | hex {mark : Char} {ds : List Char} (h : mark = 'x' ∨ mark = 'X')
      (rest : SetOff isHexDigit ds) : IsInt ('0' :: mark :: ds)

/-- The mark of an exponent. -/
inductive IsMark : (hex : Bool) → Char → Prop where
  | decimal {mark : Char} (h : mark = 'e' ∨ mark = 'E') : IsMark false mark
  | hex {mark : Char} (h : mark = 'p' ∨ mark = 'P') : IsMark true mark

/-- An exponent; its digits are decimal ones in a hexadecimal number too. -/
inductive Exponent (hex : Bool) : List Char → Prop where
  | plain {mark : Char} {ds : List Char} (h : IsMark hex mark) (digits : Digits Char.isDigit ds) :
    Exponent hex (mark :: ds)
  | signed {mark sign : Char} {ds : List Char} (h : IsMark hex mark) (signs : sign = '+' ∨ sign = '-')
      (digits : Digits Char.isDigit ds) : Exponent hex (mark :: sign :: ds)

def ExponentOpt (hex : Bool) (cs : List Char) : Prop := cs = [] ∨ Exponent hex cs

inductive IsHexMantissa : List Char → Prop where
  | point {whole part : List Char} (h : SetOff isHexDigit whole) (rest : DigitsOpt isHexDigit part) :
    IsHexMantissa (whole ++ '.' :: part)
  | whole {whole : List Char} (h : SetOff isHexDigit whole) : IsHexMantissa whole
  | part {part : List Char} (h : Digits isHexDigit part) : IsHexMantissa ('.' :: part)

inductive IsFloat : List Char → Prop where
  | point {whole part exponent : List Char} (h : Digits Char.isDigit whole)
      (rest : DigitsOpt Char.isDigit part) (scale : ExponentOpt false exponent) :
    IsFloat (whole ++ '.' :: part ++ exponent)
  | whole {whole exponent : List Char} (h : Digits Char.isDigit whole)
      (scale : Exponent false exponent) : IsFloat (whole ++ exponent)
  | part {part exponent : List Char} (h : Digits Char.isDigit part)
      (scale : ExponentOpt false exponent) : IsFloat ('.' :: part ++ exponent)
  | hex {mark : Char} {mantissa exponent : List Char} (h : mark = 'x' ∨ mark = 'X')
      (rest : IsHexMantissa mantissa) (scale : Exponent true exponent) :
    IsFloat ('0' :: mark :: mantissa ++ exponent)

inductive IsImag : List Char → Prop where
  | digits {ds : List Char} (h : Digits Char.isDigit ds) : IsImag (ds ++ ['i'])
  | int {cs : List Char} (h : IsInt cs) : IsImag (cs ++ ['i'])
  | float {cs : List Char} (h : IsFloat cs) : IsImag (cs ++ ['i'])

/-- A number of some kind. -/
inductive IsLiteral : LiteralKind → List Char → Prop where
  | int {cs : List Char} (h : IsInt cs) : IsLiteral .int cs
  | float {cs : List Char} (h : IsFloat cs) : IsLiteral .float cs
  | imag {cs : List Char} (h : IsImag cs) : IsLiteral .imag cs

/-! ### Digits as the reader takes them -/

section Digits

variable {hex : Bool} {digit : Char → Bool} {ds : List Char}

/-- The reader takes every digit of this base. -/
def Covers (hex : Bool) (digit : Char → Bool) : Prop := ∀ c, digit c → isDigit hex c

theorem covers_decimal : Covers hex Char.isDigit := fun c h => by simp [isDigit, h]

theorem covers_hex : Covers true isHexDigit := fun c h => by simp [isDigit, h]

theorem covers_octal : Covers false isOctalDigit := fun c h => by
  simp only [isOctalDigit, Bool.and_eq_true, decide_eq_true_eq] at h
  have : c.isDigit := by
    simp only [Char.isDigit, Bool.and_eq_true, decide_eq_true_eq]
    exact ⟨h.1, UInt32.le_trans h.2 (by decide)⟩
  simp [isDigit, this]

theorem covers_binary : Covers false isBinaryDigit := fun c h => by
  simp only [isBinaryDigit, Bool.or_eq_true, beq_iff_eq] at h
  rcases h with rfl | rfl <;> decide

theorem Digits.all (h : Digits digit ds) (covers : Covers hex digit) : ∀ c ∈ ds, isDigit hex c := by
  have separator : isDigit hex '_' := by simp [isDigit]
  induction h with
  | last h => simpa using covers _ h
  | next h _ ih => exact List.forall_mem_cons.mpr ⟨covers _ h, ih⟩
  | apart h _ ih =>
    exact List.forall_mem_cons.mpr ⟨covers _ h, List.forall_mem_cons.mpr ⟨separator, ih⟩⟩

theorem Digits.exists_cons (h : Digits digit ds) : ∃ c cs, ds = c :: cs ∧ digit c := by
  cases h with
  | last h => exact ⟨_, _, rfl, h⟩
  | next h _ => exact ⟨_, _, rfl, h⟩
  | apart h _ => exact ⟨_, _, rfl, h⟩

theorem SetOff.all (h : SetOff digit ds) (covers : Covers hex digit) :
    ∀ c ∈ ds, isDigit hex c := by
  cases h with
  | plain h => exact h.all covers
  | apart h => exact List.forall_mem_cons.mpr ⟨by simp [isDigit], h.all covers⟩

theorem DigitsOpt.all (h : DigitsOpt digit ds) (covers : Covers hex digit) :
    ∀ c ∈ ds, isDigit hex c := by
  rcases h with rfl | h
  · nofun
  · exact h.all covers

end Digits

/-! ### The parts of a number -/

/-- The parts that a number is read in. -/
structure Parts where
  hex : Bool
  base : List Char
  whole : List Char
  fraction : List Char
  exponent : List Char
  suffix : List Char

def Parts.text (p : Parts) : List Char :=
  p.base ++ (p.whole ++ (p.fraction ++ (p.exponent ++ p.suffix)))

/-- Every part is as the reader takes it. -/
structure Parts.Fit (p : Parts) : Prop where
  base : p.base = [] ∧ p.hex = false ∨
    ∃ mark, p.base = ['0', mark] ∧ isBaseMark mark ∧ isHexMark mark = p.hex
  whole : ∀ c ∈ p.whole, isDigit p.hex c
  fraction : p.fraction = [] ∨ ∃ ds, p.fraction = '.' :: ds ∧ ∀ c ∈ ds, isDigit p.hex c
  exponent : ExponentOpt p.hex p.exponent
  suffix : p.suffix = [] ∨ p.suffix = ['i']
  starts : Lexeme.startsNumber p.text

/-! ### The parts of what the grammar derives -/

theorem Exponent.exists_mark {hex : Bool} {cs : List Char} (h : Exponent hex cs) :
    ∃ mark rest, cs = mark :: rest ∧ IsMark hex mark := by
  cases h with
  | plain h _ => exact ⟨_, _, rfl, h⟩
  | signed h _ _ => exact ⟨_, _, rfl, h⟩

section Derived

variable {c : Char} {cs ds : List Char} {digit : Char → Bool}

theorem startsNumber_digit (h : c.isDigit) : Lexeme.startsNumber (c :: cs) := by
  unfold Lexeme.startsNumber
  split
  · rename_i same
    obtain ⟨rfl, -⟩ := List.cons.inj same
    exact absurd h (by decide)
  · rename_i same
    obtain ⟨rfl, -⟩ := List.cons.inj same
    exact h
  · rename_i same
    nomatch same

theorem startsNumber_point (h : c.isDigit) : Lexeme.startsNumber ('.' :: c :: cs) := h

theorem startsNumber_append (h : Lexeme.startsNumber cs) (rest : List Char) :
    Lexeme.startsNumber (cs ++ rest) := by
  unfold Lexeme.startsNumber at h
  split at h
  · exact startsNumber_point h
  · exact startsNumber_digit h
  · nomatch h

theorem Digits.starts (h : Digits Char.isDigit ds) : Lexeme.startsNumber (ds ++ cs) := by
  obtain ⟨d, ds, rfl, digit⟩ := h.exists_cons
  exact startsNumber_digit digit

/-- An integer falls into a base and digits. -/
theorem IsInt.parts (h : IsInt cs) : ∃ p : Parts, p.Fit ∧ p.text = cs ∧ p.fraction = [] ∧
    p.exponent = [] ∧ p.suffix = [] := by
  have decimal {ds : List Char} (all : ∀ c ∈ ds, isDigit false c)
      (starts : Lexeme.startsNumber ds) : ∃ p : Parts, p.Fit ∧ p.text = ds ∧ p.fraction = [] ∧
      p.exponent = [] ∧ p.suffix = [] :=
    ⟨⟨false, [], ds, [], [], []⟩, ⟨.inl ⟨rfl, rfl⟩, all, .inl rfl, .inl rfl, .inl rfl,
      by simpa [Parts.text] using starts⟩, by simp [Parts.text], rfl, rfl, rfl⟩
  have based {mark : Char} {ds : List Char} (isMark : isBaseMark mark)
      (all : ∀ c ∈ ds, isDigit (isHexMark mark) c) : ∃ p : Parts, p.Fit ∧
      p.text = '0' :: mark :: ds ∧ p.fraction = [] ∧ p.exponent = [] ∧ p.suffix = [] :=
    ⟨⟨isHexMark mark, ['0', mark], ds, [], [], []⟩, ⟨.inr ⟨mark, rfl, isMark, rfl⟩, all, .inl rfl,
      .inl rfl, .inl rfl, startsNumber_digit rfl⟩, by simp [Parts.text], rfl, rfl, rfl⟩
  cases h with
  | zero => exact decimal (List.forall_mem_singleton.mpr rfl) rfl
  | digit h _ => exact decimal (by simp [isDigit, h]) (startsNumber_digit h)
  | decimal h _ rest =>
    refine decimal (List.forall_mem_cons.mpr ⟨?_, rest.all covers_decimal⟩) (startsNumber_digit h)
    exact covers_decimal _ h
  | legacyOctal rest =>
    exact decimal (List.forall_mem_cons.mpr ⟨rfl, rest.all covers_octal⟩) (startsNumber_digit rfl)
  | binary h rest => rcases h with rfl | rfl <;> exact based rfl (rest.all covers_binary)
  | octal h rest => rcases h with rfl | rfl <;> exact based rfl (rest.all covers_octal)
  | hex h rest => rcases h with rfl | rfl <;> exact based rfl (rest.all covers_hex)

theorem DigitsOpt.fraction {hex : Bool} (h : DigitsOpt digit ds) (covers : Covers hex digit) :
    '.' :: ds = [] ∨ ∃ ds', '.' :: ds = '.' :: ds' ∧ ∀ c ∈ ds', isDigit hex c :=
  .inr ⟨ds, rfl, h.all covers⟩

theorem IsHexMantissa.parts (h : IsHexMantissa cs) : ∃ whole fraction, cs = whole ++ fraction ∧
    (∀ c ∈ whole, isDigit true c) ∧
    (fraction = [] ∨ ∃ ds, fraction = '.' :: ds ∧ ∀ c ∈ ds, isDigit true c) := by
  cases h with
  | point h rest => exact ⟨_, _, rfl, h.all covers_hex, rest.fraction covers_hex⟩
  | whole h => exact ⟨cs, [], by simp, h.all covers_hex, .inl rfl⟩
  | part h => exact ⟨[], _, rfl, nofun, .inr ⟨_, rfl, h.all covers_hex⟩⟩

/-- A floating-point number has a fraction or an exponent. -/
theorem IsFloat.parts (h : IsFloat cs) : ∃ p : Parts, p.Fit ∧ p.text = cs ∧
    (p.fraction ≠ [] ∨ p.exponent ≠ []) ∧ p.suffix = [] := by
  cases h with
  | @point whole part exponent h rest scale =>
    refine ⟨⟨false, [], whole, '.' :: part, exponent, []⟩, ⟨.inl ⟨rfl, rfl⟩, h.all covers_decimal,
      rest.fraction covers_decimal, scale, .inl rfl, h.starts⟩, by simp [Parts.text], .inl nofun, rfl⟩
  | @whole whole exponent h scale =>
    obtain ⟨mark, rest, rfl, -⟩ := scale.exists_mark
    refine ⟨⟨false, [], whole, [], mark :: rest, []⟩, ⟨.inl ⟨rfl, rfl⟩, h.all covers_decimal,
      .inl rfl, .inr scale, .inl rfl, h.starts⟩, by simp [Parts.text], .inr nofun, rfl⟩
  | @part part exponent h scale =>
    obtain ⟨d, ds, rfl, digit⟩ := h.exists_cons
    refine ⟨⟨false, [], [], '.' :: d :: ds, exponent, []⟩, ⟨.inl ⟨rfl, rfl⟩, nofun,
      .inr ⟨_, rfl, h.all covers_decimal⟩, scale, .inl rfl, startsNumber_point digit⟩,
      by simp [Parts.text], .inl nofun, rfl⟩
  | @hex mark mantissa exponent h rest scale =>
    obtain ⟨whole, fraction, rfl, all, ofFraction⟩ := rest.parts
    obtain ⟨first, behind, rfl, -⟩ := scale.exists_mark
    have isMark : isBaseMark mark ∧ isHexMark mark = true := by
      rcases h with rfl | rfl <;> exact ⟨rfl, rfl⟩
    refine ⟨⟨true, ['0', mark], whole, fraction, first :: behind, []⟩,
      ⟨.inr ⟨mark, rfl, isMark⟩, all, ofFraction, .inr scale, .inl rfl, startsNumber_digit rfl⟩,
      by simp [Parts.text], .inr nofun, rfl⟩

theorem Parts.Fit.imaginary {p : Parts} (fit : p.Fit) (none : p.suffix = []) :
    ∃ p' : Parts, p'.Fit ∧ p'.text = p.text ++ ['i'] ∧ p'.suffix = ['i'] := by
  have text : Parts.text { p with suffix := ['i'] } = p.text ++ ['i'] := by simp [Parts.text, none]
  refine ⟨{ p with suffix := ['i'] }, ⟨fit.base, fit.whole, fit.fraction, fit.exponent, .inr rfl, ?_⟩,
    text, rfl⟩
  rw [text]
  exact startsNumber_append fit.starts _

theorem IsImag.parts (h : IsImag cs) : ∃ p : Parts, p.Fit ∧ p.text = cs ∧ p.suffix = ['i'] := by
  cases h with
  | @digits ds h =>
    exact ⟨⟨false, [], ds, [], [], ['i']⟩, ⟨.inl ⟨rfl, rfl⟩, h.all covers_decimal, .inl rfl, .inl rfl,
      .inr rfl, h.starts⟩, by simp [Parts.text], rfl⟩
  | int h =>
    obtain ⟨p, fit, rfl, -, -, suffix⟩ := h.parts
    exact fit.imaginary suffix
  | float h =>
    obtain ⟨p, fit, rfl, -, suffix⟩ := h.parts
    exact fit.imaginary suffix

end Derived

end Number

end GoLayout
