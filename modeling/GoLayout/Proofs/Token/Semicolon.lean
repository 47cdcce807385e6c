import GoLayout.Proofs.Token.Cover

/-!
Automatic semicolons. A source without faults is a row of tokens with gaps of blanks, newlines and
comments behind them. An empty semicolon stands in a gap exactly if the token before it can end a
statement and the line ends in the gap, or the source does; it stands where the line ends.
-/

namespace GoLayout

/-! ### The rule -/

/-- Tokens that a statement can end with. -/
inductive TokenKind.EndsStatement : TokenKind → Prop where
  | name (text : String) : EndsStatement (.name text)
  | literal (kind : LiteralKind) (text : String) : EndsStatement (.literal kind text)
  | breaks : EndsStatement (.keyword .kwBreak)
  | continues : EndsStatement (.keyword .kwContinue)
  | falls : EndsStatement (.keyword .kwFallthrough)
  | returns : EndsStatement (.keyword .kwReturn)
  | inc : EndsStatement (.mark .inc)
  | dec : EndsStatement (.mark .dec)
  | rparen : EndsStatement (.mark .rparen)
  | rbrack : EndsStatement (.mark .rbrack)
  | rbrace : EndsStatement (.mark .rbrace)

theorem TokenKind.endsStatement_iff {k : TokenKind} : k.endsStatement ↔ k.EndsStatement := by
  constructor
  · intro h
    cases k with
    | name text => exact .name text
    | literal kind text => exact .literal kind text
    | keyword k =>
      simp only [endsStatement] at h
      split at h
      · exact .breaks
      · exact .continues
      · exact .falls
      · exact .returns
      · nomatch h
    | mark m =>
      simp only [endsStatement] at h
      split at h
      · exact .inc
      · exact .dec
      · exact .rparen
      · exact .rbrack
      · exact .rbrace
      · nomatch h
    | eof | invalid => nomatch h
  · rintro (_ | _) <;> rfl

/-- Lexemes that end the line they start on. A comment in a block does if it goes over to another
line. -/
inductive Lexeme.EndsLine : Lexeme → Prop where
  | newline : EndsLine .newline
  | lineComment (text : String) : EndsLine (.comment .line text)
  | blockComment (text : String) (c : Char) (inside : c ∈ text.toList)
      (isEnd : c = '\n' ∨ c = '\r') : EndsLine (.comment .block text)

/-- Where the semicolon stands in the gap behind a token that ends a statement: at the first lexeme
that ends the line, or else at the end of the source. -/
inductive Scan.SemiPlace (size : Nat) (gap : List (Lexeme × Span)) : Nat → Prop where
  | atLineEnd {before behind : List (Lexeme × Span)} {l : Lexeme × Span}
      (parts : gap = before ++ l :: behind) (first : ∀ b ∈ before, ¬ b.1.EndsLine)
      (ends : l.1.EndsLine) : SemiPlace size gap l.2.start
  | atEnd (none : ∀ l ∈ gap, ¬ l.1.EndsLine) : SemiPlace size gap size

namespace Scan

/-- The token that a lexeme is. -/
def tokenOf? : Lexeme × Span → Option Token
  | (.token kind, span) => some ⟨kind, span⟩
  | _ => none

theorem endsLine_iff {l : Lexeme} : endsLine l ↔ l.EndsLine := by
  constructor
  · intro h
    unfold endsLine at h
    split at h
    · exact .newline
    · exact .lineComment _
    · rename_i text
      obtain ⟨c, inside, isEnd⟩ := List.any_eq_true.mp h
      refine .blockComment text c inside ?_
      simpa [Lexeme.isLineEnd] using isEnd
    · simp at h
  · rintro (_ | _ | ⟨text, c, inside, isEnd⟩)
    · rfl
    · rfl
    · refine List.any_eq_true.mpr ⟨c, inside, ?_⟩
      simpa [Lexeme.isLineEnd] using isEnd

/-! ### Lexemes one behind the other -/

/-- A lexeme of a source without faults: a token, or what may stand between tokens. -/
def IsSound (l : Lexeme × Span) : Prop := (∃ kind, l.1 = .token kind) ∨ isBetween l.1

theorem isSound_of_faultOf? {l : Lexeme × Span} (h : faultOf? l = none) : IsSound l := by
  obtain ⟨lexeme, span⟩ := l
  cases lexeme with
  | token kind => exact .inl ⟨kind, rfl⟩
  | blank | newline | comment _ _ => exact .inr rfl
  | stray _ | openComment _ => nomatch h

theorem tokenOf?_eq_none {l : Lexeme × Span} (between : isBetween l.1) : tokenOf? l = none := by
  obtain ⟨lexeme, span⟩ := l
  cases lexeme with
  | blank | newline | comment _ _ => rfl
  | token _ | stray _ | openComment _ => nomatch between

variable {size : Nat} {open? : Bool} {lexemes rest : List (Lexeme × Span)}

theorem tokensOf_between {l : Lexeme × Span} (between : isBetween l.1) :
    tokensOf size open? (l :: rest) =
      if open? && endsLine l.1 then autoSemi l.2.start :: tokensOf size false rest
      else tokensOf size open? rest := by
  obtain ⟨lexeme, span⟩ := l
  cases lexeme with
  | blank | newline | comment _ _ => rfl
  | token _ | stray _ | openComment _ => nomatch between

/-- A gap behind a finished statement has no semicolon, one behind an open statement has it at the
first lexeme that ends the line. -/
theorem tokensOf_gap {gap : List (Lexeme × Span)} (between : ∀ l ∈ gap, isBetween l.1) :
    tokensOf size open? (gap ++ rest) =
      match if open? then gap.find? (endsLine ·.1) else none with
      | some l => autoSemi l.2.start :: tokensOf size false rest
      | none => tokensOf size open? rest := by
  cases open? with
  | false => exact tokensOf_append between
  | true =>
    induction gap with
    | nil => rfl
    | cons l gap ih =>
      obtain ⟨here, behind⟩ := List.forall_mem_cons.mp between
      rw [List.cons_append, tokensOf_between here]
      cases ends : endsLine l.1 with
      | true => simp [ends, tokensOf_append behind]
      | false => simpa [ends] using ih behind

/-- What lexemes give does not depend on what follows them, but for the statement they leave
open. -/
theorem exists_tokensOf_append (open? : Bool) {front : List (Lexeme × Span)}
    (sound : ∀ l ∈ front, IsSound l) (solid : ∀ l ∈ front, l.2.start < l.2.stop) :
    ∃ earlier still, earlier.filter (!·.isAutomatic) = front.filterMap tokenOf? ∧
      ∀ rest, tokensOf size open? (front ++ rest) = earlier ++ tokensOf size still rest := by
  induction front generalizing open? with
  | nil => exact ⟨[], open?, rfl, fun _ => rfl⟩
  | cons l front ih =>
    obtain ⟨here, behind⟩ := List.forall_mem_cons.mp sound
    obtain ⟨wide, wideBehind⟩ := List.forall_mem_cons.mp solid
    rcases here with ⟨kind, isToken⟩ | between
    · obtain ⟨lexeme, span⟩ := l
      cases isToken
      obtain ⟨earlier, still, real, same⟩ := ih kind.endsStatement behind wideBehind
      refine ⟨⟨kind, span⟩ :: earlier, still, ?_, fun rest => ?_⟩
      · have written : Token.isAutomatic ⟨kind, span⟩ = false := Token.isAutomatic_of_lt wide
        rw [List.filter_cons_of_pos (by simp [written]), real]
        rfl
      · exact congrArg (⟨kind, span⟩ :: ·) (same rest)
    · rw [List.filterMap_cons_none (tokenOf?_eq_none between)]
      simp only [List.cons_append, tokensOf_between between]
      split
      · obtain ⟨earlier, still, real, same⟩ := ih false behind wideBehind
        refine ⟨autoSemi l.2.start :: earlier, still, ?_, fun rest => ?_⟩
        · simpa [Token.isAutomatic_autoSemi] using real
        · exact congrArg (autoSemi l.2.start :: ·) (same rest)
      · exact ih open? behind wideBehind

/-- Without the semicolons that have no characters, the tokens among the lexemes are left. -/
theorem filter_tokensOf (sound : ∀ l ∈ lexemes, IsSound l)
    (solid : ∀ l ∈ lexemes, l.2.start < l.2.stop) :
    (tokensOf size open? lexemes).filter (!·.isAutomatic) = lexemes.filterMap tokenOf? := by
  obtain ⟨earlier, still, real, same⟩ := @exists_tokensOf_append size open? _ sound solid
  rw [← List.append_nil lexemes, same, List.filter_append, real, List.append_nil]
  cases still <;> simp [tokensOf, Token.isAutomatic_autoSemi]

/-- Where no statement is open, or a token comes first, no semicolon comes first. -/
theorem head?_tokensOf (sound : ∀ l ∈ lexemes, IsSound l)
    (solid : ∀ l ∈ lexemes, l.2.start < l.2.stop)
    (leads : open? → ∃ kind span rest, lexemes = (.token kind, span) :: rest) :
    ∀ t ∈ (tokensOf size open? lexemes).head?, t.isAutomatic = false := by
  induction lexemes with
  | nil =>
    cases open? with
    | false => simp [tokensOf]
    | true => obtain ⟨_, _, _, parts⟩ := leads rfl; simp at parts
  | cons l rest ih =>
    obtain ⟨here, behind⟩ := List.forall_mem_cons.mp sound
    obtain ⟨wide, wideBehind⟩ := List.forall_mem_cons.mp solid
    rcases here with ⟨kind, isToken⟩ | between
    · obtain ⟨lexeme, span⟩ := l
      cases isToken
      rintro _ ⟨⟩
      exact Token.isAutomatic_of_lt wide
    · have closed : open? = false := by
        rw [Bool.eq_false_iff]
        intro isOpen
        obtain ⟨_, _, _, parts⟩ := leads isOpen
        rw [(List.cons.inj parts).1] at between
        simp [isBetween] at between
      subst closed
      rw [tokensOf_between between]
      exact ih behind wideBehind (by simp)

/-! ### Gaps behind tokens -/

theorem semiPlace_of_find? {gap : List (Lexeme × Span)} {l : Lexeme × Span}
    (found : gap.find? (endsLine ·.1) = some l) : SemiPlace size gap l.2.start := by
  obtain ⟨ends, before, behind, parts, earlier⟩ := List.find?_eq_some_iff_append.mp found
  refine .atLineEnd parts (fun b mem isEnd => ?_) (endsLine_iff.mp ends)
  simpa [endsLine_iff.mpr isEnd] using earlier b mem

theorem find?_eq_none_iff {gap : List (Lexeme × Span)} :
    gap.find? (endsLine ·.1) = none ↔ ∀ l ∈ gap, ¬ l.1.EndsLine := by
  simp only [List.find?_eq_none, endsLine_iff]

/-- What stands between a token and the next one: one semicolon if it is due, and nothing else. -/
theorem exists_semi? {kind : TokenKind} {gap after : List (Lexeme × Span)}
    (between : ∀ l ∈ gap, isBetween l.1) :
    ∃ (semi? : Option Nat) (still : Bool), tokensOf size kind.endsStatement (gap ++ after) =
        semi?.toList.map autoSemi ++ (if after = [] then [] else tokensOf size still after) ∧
      (∀ pos ∈ semi?, SemiPlace size gap pos) ∧
      (semi?.isSome ↔ kind.EndsStatement ∧ (after = [] ∨ ∃ l ∈ gap, l.1.EndsLine)) := by
  rw [tokensOf_gap between]
  cases ends : kind.endsStatement with
  | false =>
    have notEnded : ¬ kind.EndsStatement := by simp [← TokenKind.endsStatement_iff, ends]
    refine ⟨none, false, ?_, nofun, by simp [notEnded]⟩
    split <;> simp_all [tokensOf]
  | true =>
    have ended : kind.EndsStatement := TokenKind.endsStatement_iff.mp ends
    simp only [if_true]
    cases found : gap.find? (endsLine ·.1) with
    | some l =>
      -- The semicolon stands in the gap, whatever follows.
      have ends := List.find?_some found
      have inGap : ∃ l ∈ gap, l.1.EndsLine :=
        ⟨l, List.mem_of_find?_eq_some found, endsLine_iff.mp ends⟩
      refine ⟨some l.2.start, false, ?_, ?_, by simp [ended, inGap]⟩
      · split <;> simp_all [tokensOf]
      · rintro _ ⟨⟩
        exact semiPlace_of_find? found
    | none =>
      have noLineEnd := find?_eq_none_iff.mp found
      by_cases atEnd : after = []
      · refine ⟨some size, true, by simp [atEnd, tokensOf], ?_, by simp [ended, atEnd]⟩
        rintro _ ⟨⟩
        exact .atEnd noLineEnd
      · refine ⟨none, true, by simp [atEnd], nofun, ?_⟩
        simpa [ended, atEnd] using noLineEnd

/-- Semicolons are put in exactly where a statement ends with its line. Without the ones that have
no characters, the tokens of a source without faults are those among its lexemes. None comes before
the first of these. Behind each of them, up to the next one or the end, stands one if the token can
end a statement and a lexeme in between ends the line or there is no next token, and otherwise none;
it stands at the first lexeme that ends the line, or else at the end of the source. -/
theorem semicolons_exact {src : String} (faultless : (ofSource src).faults = []) :
    (ofSource src).tokens.filter (!·.isAutomatic) =
        (Lexeme.all src.toList).filterMap tokenOf? ∧
      (∀ t ∈ (ofSource src).tokens.head?, t.isAutomatic = false) ∧
      ∀ before kind span gap after,
        Lexeme.all src.toList = before ++ (.token kind, span) :: (gap ++ after) →
        (∀ l ∈ gap, isBetween l.1) → (∀ l ∈ after.head?, ∃ kind, l.1 = .token kind) →
        ∃ (earlier : List Token) (semi? : Option Nat) (later : List Token),
          (ofSource src).tokens =
            earlier ++ ⟨kind, span⟩ :: (semi?.toList.map autoSemi ++ later) ∧
          earlier.filter (!·.isAutomatic) = before.filterMap tokenOf? ∧
          later.filter (!·.isAutomatic) = after.filterMap tokenOf? ∧
          (∀ t ∈ later.head?, t.isAutomatic = false) ∧
          (∀ pos ∈ semi?, SemiPlace src.utf8ByteSize gap pos) ∧
          (semi?.isSome ↔ kind.EndsStatement ∧ (after = [] ∨ ∃ l ∈ gap, l.1.EndsLine)) := by
  have sound : ∀ l ∈ Lexeme.all src.toList, IsSound l := fun l mem =>
    isSound_of_faultOf? (faultOf?_eq_none faultless l mem)
  have solid : ∀ l ∈ Lexeme.all src.toList, l.2.start < l.2.stop := Lexeme.all_solid _
  refine ⟨filter_tokensOf sound solid, head?_tokensOf sound solid nofun, ?_⟩
  intro before kind span gap after parts between leads
  rw [parts] at sound solid
  obtain ⟨soundBefore, soundBehind⟩ := List.forall_mem_append.mp sound
  obtain ⟨solidBefore, solidBehind⟩ := List.forall_mem_append.mp solid
  have soundAfter := (List.forall_mem_append.mp (List.forall_mem_cons.mp soundBehind).2).2
  have solidAfter := (List.forall_mem_append.mp (List.forall_mem_cons.mp solidBehind).2).2
  obtain ⟨earlier, _, real, same⟩ :=
    @exists_tokensOf_append src.utf8ByteSize false _ soundBefore solidBefore
  obtain ⟨semi?, still, tail, place, due⟩ :=
    @exists_semi? src.utf8ByteSize kind gap after between
  have tokens : (ofSource src).tokens = earlier ++ ⟨kind, span⟩ ::
      tokensOf src.utf8ByteSize kind.endsStatement (gap ++ after) := by
    rw [ofSource, parts]
    exact same _
  rw [tail] at tokens
  refine ⟨earlier, semi?, _, tokens, real, ?_, ?_, place, due⟩
  · split
    · rename_i atEnd
      rw [atEnd]
      rfl
    · exact filter_tokensOf soundAfter solidAfter
  · split
    · simp
    · rename_i goesOn
      obtain ⟨⟨lexeme, place⟩, rest, rfl⟩ := List.exists_cons_of_ne_nil goesOn
      obtain ⟨next, rfl⟩ := leads _ rfl
      exact head?_tokensOf soundAfter solidAfter fun _ => ⟨next, place, rest, rfl⟩

/-- Behind the name in `a /* b */ // c` stands a semicolon. -/
theorem semicolons_exact_comments :
    (ofSource "a /* b */ // c\n").faults = [] ∧
      ∃ earlier pos later, (ofSource "a /* b */ // c\n").tokens =
        earlier ++ ⟨.name "a", ⟨0, 1⟩⟩ :: autoSemi pos :: later := by
  have faultless : (ofSource "a /* b */ // c\n").faults = [] := by decide +kernel
  obtain ⟨-, -, behind⟩ := semicolons_exact faultless
  obtain ⟨earlier, semi?, later, tokens, -, -, -, -, due⟩ := behind [] (.name "a") ⟨0, 1⟩
    [(.blank, ⟨1, 2⟩), (.comment .block "/* b */", ⟨2, 9⟩), (.blank, ⟨9, 10⟩),
      (.comment .line "// c", ⟨10, 14⟩), (.newline, ⟨14, 15⟩)] []
    (by decide +kernel) (by decide) nofun
  obtain ⟨pos, rfl⟩ := Option.isSome_iff_exists.mp (due.mpr ⟨.name "a", .inl rfl⟩)
  exact ⟨faultless, earlier, pos, later, tokens⟩

end Scan

end GoLayout
