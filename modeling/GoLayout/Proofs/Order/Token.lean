import GoLayout.Proofs.Token.Cover
import GoLayout.Proofs.Words.Imports

/-!
Where the tokens of a source stand: each starts behind the start of the one before it, and where a
token ends no line starts, and no comment ends.
-/

namespace GoLayout

/-! ### How tokens end -/

namespace Number

/-- A reader of a part takes no newline. -/
def Inline (part : List Char → Split) : Prop := ∀ cs, '\n' ∉ (part cs).1

theorem more_inline {part : List Char → Split} (inline : Inline part) {s : Split}
    (h : '\n' ∉ s.1) : '\n' ∉ (more part s).1 := by
  change '\n' ∉ s.1 ++ (part s.2).1
  rw [List.mem_append, not_or]
  exact ⟨h, inline s.2⟩

theorem inline_base : Inline base := by
  intro cs
  unfold base
  split
  · split
    · rename_i isMark
      simp only [List.mem_cons, List.not_mem_nil, or_false, not_or]
      refine ⟨by decide, ?_⟩
      rintro rfl
      nomatch isMark
    · simp
  · simp

theorem inline_digits (hex : Bool) : Inline (digits hex) := by
  intro cs mem
  rw [digits, List.span_eq_takeWhile_dropWhile] at mem
  have isDigit := List.mem_takeWhile_imp mem
  cases hex with
  | true => exact absurd isDigit (by decide)
  | false => exact absurd isDigit (by decide)

theorem inline_fraction (hex : Bool) : Inline (fraction hex) := by
  intro cs
  unfold fraction
  split
  · simp
  · rename_i rest _
    simpa using inline_digits hex rest
  · simp

theorem inline_sign : Inline sign := by
  intro cs
  unfold sign
  split
  · split
    · rename_i isSign
      rw [List.mem_singleton]
      rintro rfl
      nomatch isSign
    · simp
  · simp

theorem inline_exponent (hex : Bool) : Inline (exponent hex) := by
  intro cs
  unfold exponent
  split
  · split
    · rename_i isMark
      refine more_inline (inline_digits false) (more_inline inline_sign ?_)
      rw [List.mem_singleton]
      rintro rfl
      cases hex with
      | true => nomatch isMark
      | false => nomatch isMark
    · simp
  · simp

theorem inline_suffix : Inline suffix := by
  intro cs
  unfold suffix
  split
  · simp
  · simp

theorem inline_read : Inline read := by
  intro cs
  exact more_inline inline_suffix (more_inline (inline_exponent _) (more_inline (inline_fraction _)
    (more_inline (inline_digits _) (inline_base cs))))

end Number

namespace Lexeme

theorem quotedBody?_ends {quote : Char} {cs taken rest : List Char}
    (h : quotedBody? quote cs = some (taken, rest)) : taken.getLast? = some quote := by
  have behind (front : List Char) {taken : List Char} (closed : taken.getLast? = some quote) :
      (front ++ taken).getLast? = some quote := by
    rw [List.getLast?_append, closed]
    rfl
  fun_induction quotedBody? quote cs generalizing taken rest with
  | case1 => cases h
  | case2 c tail _ ih =>
    obtain ⟨⟨taken', rest'⟩, body, parts⟩ := Option.map_eq_some_iff.mp h
    cases parts
    exact behind ['\\', c] (ih body)
  | case3 =>
    cases h
    rfl
  | case4 => cases h
  | case5 c tail _ _ _ ih =>
    obtain ⟨⟨taken', rest'⟩, body, parts⟩ := Option.map_eq_some_iff.mp h
    cases parts
    exact behind [c] (ih body)
  | case6 => cases h

theorem rawBody?_ends {cs taken rest : List Char} (h : rawBody? cs = some (taken, rest)) :
    taken.getLast? = some '\x60' := by
  unfold rawBody? at h
  rw [List.span_eq_takeWhile_dropWhile] at h
  split at h
  · rename_i body quote tail parts
    obtain ⟨-, left⟩ := Prod.mk.inj parts
    cases h
    have stops : (cs.dropWhile (· != '\x60')).head? = some quote := by rw [left]; rfl
    have isQuote := List.head?_dropWhile_not (· != '\x60') cs
    rw [stops] at isQuote
    simpa using isQuote
  · nomatch h

/-- What a token is written with does not end with a newline. -/
def EndsInLine (r : Reading) : Prop := ∀ kind, r.1 = .token kind → '\n' ∉ r.2.1.getLast?

theorem endsInLine_of_not_mem {r : Reading} (h : '\n' ∉ r.2.1) : EndsInLine r :=
  fun _ _ last => h (List.mem_of_getLast? last)

theorem word?_endsInLine {cs : List Char} : ∀ r ∈ word? cs, EndsInLine r := by
  intro r read
  unfold word? at read
  split at read
  · rename_i c cs
    split at read
    · rename_i starts
      rw [List.span_eq_takeWhile_dropWhile] at read
      obtain rfl := Option.some.inj read
      refine endsInLine_of_not_mem fun mem => ?_
      rcases List.mem_cons.mp mem with rfl | mem
      · exact absurd starts (by decide +kernel)
      · exact absurd (List.mem_takeWhile_imp mem) (by decide +kernel)
    · nomatch read
  · nomatch read

theorem number?_endsInLine {cs : List Char} : ∀ r ∈ number? cs, EndsInLine r := by
  intro r read
  unfold number? at read
  split at read
  · obtain rfl := Option.some.inj read
    exact endsInLine_of_not_mem (Number.inline_read cs)
  · nomatch read

theorem quoted?_endsInLine {cs : List Char} : ∀ r ∈ quoted? cs, EndsInLine r := by
  intro r read
  unfold quoted? at read
  split at read
  · rename_i quote cs
    obtain ⟨⟨kind, body, rest⟩, found, rfl⟩ := Option.map_eq_some_iff.mp read
    have closed : ∃ q, q ≠ '\n' ∧ body.getLast? = some q := by
      unfold literalBody? at found
      split at found
      · obtain ⟨_, read, parts⟩ := Option.map_eq_some_iff.mp found
        cases parts
        exact ⟨_, by decide, quotedBody?_ends read⟩
      · obtain ⟨_, read, parts⟩ := Option.map_eq_some_iff.mp found
        cases parts
        exact ⟨_, by decide, rawBody?_ends read⟩
      · split at found
        · nomatch found
        · obtain ⟨_, read, parts⟩ := Option.map_eq_some_iff.mp found
          cases parts
          exact ⟨_, by decide, quotedBody?_ends read⟩
      · nomatch found
    obtain ⟨q, noNewline, last⟩ := closed
    intro _ _ isNewline
    rw [Option.mem_def, List.getLast?_cons, last] at isNewline
    exact noNewline (Option.some.inj isNewline)
  · nomatch read

theorem mark?_endsInLine {cs : List Char} : ∀ r ∈ mark? cs, EndsInLine r := by
  intro r read
  obtain ⟨⟨spelling, m⟩, listed, found⟩ := List.exists_of_findSome?_eq_some read
  obtain ⟨rest, -, rfl⟩ := Option.map_eq_some_iff.mp found
  have noNewline : ∀ p ∈ marks, '\n' ∉ p.1 := by decide +kernel
  exact endsInLine_of_not_mem (noNewline _ listed)

theorem ReadBy.endsInLine {c : Char} {cs : List Char} {r : Reading} (h : ReadBy c cs r) :
    EndsInLine r := by
  cases h with
  | blank found => exact fun _ isToken => nomatch isToken.symm.trans (blank?_eq r found)
  | newline found => exact fun _ isToken => nomatch isToken.symm.trans (newline?_eq r found)
  | comment found => exact fun kind isToken => absurd isToken (comment?_ne_token r found kind)
  | word found => exact word?_endsInLine r found
  | number found => exact number?_endsInLine r found
  | quoted found => exact quoted?_endsInLine r found
  | mark found => exact mark?_endsInLine r found
  | stray fault isStray => exact fun _ isToken => nomatch isToken.symm.trans isStray

theorem readAll_endsInLine {pos fuel : Nat} {cs : List Char} :
    ∀ l ∈ readAll pos fuel cs, ∀ kind, l.1 = .token kind →
      '\n' ∉ kind.spelling.toList.getLast? := by
  induction fuel generalizing pos cs with
  | zero => simp [readAll]
  | succ fuel ih =>
    cases cs with
    | nil => simp [readAll]
    | cons c cs =>
      refine List.forall_mem_cons.mpr ⟨fun kind isToken => ?_, ih⟩
      have isToken : (read c cs).1 = .token kind := isToken
      rw [(read_of c cs).spelled kind.spelling (by rw [isToken]; rfl)]
      exact (read_by c cs).endsInLine kind isToken

theorem all_endsInLine (cs : List Char) : ∀ l ∈ all cs, ∀ kind, l.1 = .token kind →
    '\n' ∉ kind.spelling.toList.getLast? := by
  unfold all
  split
  · split
    · exact List.forall_mem_cons.mpr ⟨nofun, readAll_endsInLine⟩
    · exact readAll_endsInLine
  · simp

end Lexeme

/-- No line starts behind characters that do not end with a newline. -/
theorem LineTable.not_mem_starts_ofSource {src : String} {before behind : List Char} {c : Char}
    (text : src.toList = before ++ c :: behind) (noNewline : c ≠ '\n') :
    Lexeme.bytes before + c.utf8Size ∉ (ofSource src).starts := by
  intro mem
  have size := c.utf8Size_pos
  have last : (ofSource src).line (Lexeme.bytes before + c.utf8Size - 1) =
      before.count '\n' + 1 := line_ofSource text (by omega) (by omega)
  have later := (ordered_ofSource src).line_lt mem
    (show Lexeme.bytes before + c.utf8Size - 1 < _ by omega) (Nat.le_refl _)
  cases behind with
  | nil =>
    -- The characters end the text, and lines start before its end.
    have whole : Lexeme.bytes before + c.utf8Size = src.utf8ByteSize := by
      rw [← Lexeme.bytes_toList, text, Lexeme.bytes_append]
      simp [Lexeme.bytes]
    rw [whole] at mem
    rcases List.mem_cons.mp mem with zero | mem
    · omega
    · simpa using (List.mem_filter.mp mem).2
  | cons d behind =>
    have size' := d.utf8Size_pos
    have bytes : Lexeme.bytes (before ++ [c]) = Lexeme.bytes before + c.utf8Size := by
      simp [Lexeme.bytes_append, Lexeme.bytes]
    have text' : src.toList = (before ++ [c]) ++ d :: behind := by simp [text]
    have next : (ofSource src).line (Lexeme.bytes before + c.utf8Size) =
        (before ++ [c]).count '\n' + 1 := line_ofSource text' (by omega) (by omega)
    have same : (before ++ [c]).count '\n' = before.count '\n' := by
      simp [List.count_append, noNewline]
    omega

namespace Scan

theorem tokensOf_rising {size : Nat} {open? : Bool} {lexemes : List (Lexeme × Span)}
    (apart : lexemes.Pairwise fun l l' => l.2.stop ≤ l'.2.start)
    (solid : ∀ l ∈ lexemes, l.2.start < l.2.stop) (within : ∀ l ∈ lexemes, l.2.stop ≤ size) :
    (tokensOf size open? lexemes).Pairwise fun t t' => t.span.start < t'.span.start := by
  induction lexemes generalizing open? with
  | nil =>
    unfold tokensOf
    split <;> simp
  | cons l rest ih =>
    obtain ⟨first, apartBehind⟩ := List.pairwise_cons.mp apart
    obtain ⟨wide, solidBehind⟩ := List.forall_mem_cons.mp solid
    obtain ⟨here, withinBehind⟩ := List.forall_mem_cons.mp within
    have behind {open?} : ∀ t ∈ tokensOf size open? rest, l.2.start < t.span.start :=
      fun t mem => Nat.lt_of_lt_of_le wide ((origin_of_mem_tokensOf t mem).start_ge first here)
    obtain ⟨lexeme, span⟩ := l
    unfold tokensOf
    split
    · exact .cons behind (ih apartBehind solidBehind withinBehind)
    · exact .cons behind (ih apartBehind solidBehind withinBehind)
    · exact .cons behind (ih apartBehind solidBehind withinBehind)
    · split
      · exact .cons behind (ih apartBehind solidBehind withinBehind)
      · exact ih apartBehind solidBehind withinBehind

theorem tokens_rising {src : String} :
    (ofSource src).tokens.Pairwise fun t t' => t.span.start < t'.span.start :=
  tokensOf_rising (Lexeme.all_apart _) (Lexeme.all_solid _) fun l mem =>
    (Lexeme.all_within src l mem).2

/-- A closing parenthesis is one byte wide. -/
theorem closing_narrow {src : String} : ∀ t ∈ (ofSource src).tokens, t.kind = .mark .rparen →
    t.span.stop = t.span.start + 1 := by
  intro t mem closing
  have found := mem_lexemes_of_mem_tokensOf t mem (closing ▸ rfl) (closing ▸ nofun)
  obtain ⟨before, behind, -, place⟩ := (Lexeme.all_stands _ _ found).cuts rfl
  have place : t.span = _ := place
  rw [place, closing]
  rfl

theorem comments_solid {src : String} :
    ∀ c ∈ (ofSource src).comments, c.span.start < c.span.stop := by
  intro c mem
  obtain ⟨l, found, isComment⟩ := List.mem_filterMap.mp mem
  rw [(place_of_commentOf? isComment).1]
  exact Lexeme.all_solid _ l found

section Faultless

variable {src : String} (faultless : (ofSource src).faults = [])
include faultless

/-- Where a token of a source ends no line starts. -/
theorem stop_not_mem_starts : ∀ t ∈ (ofSource src).tokens, t.span.start < t.span.stop →
    t.span.stop ∉ (LineTable.ofSource src).starts := by
  intro t mem wide
  cases tokens_origin t mem with
  | token mem =>
    obtain ⟨before, behind, text, place⟩ := (Lexeme.all_stands _ _ mem).cuts rfl
    have place : t.span = _ := place
    have some : t.kind.spelling.toList ≠ [] := by
      intro none
      rw [place, none] at wide
      simp [Lexeme.bytes] at wide
    obtain ⟨cs, c, isLast⟩ := (List.eq_nil_or_concat' t.kind.spelling.toList).resolve_left some
    have noNewline : c ≠ '\n' := by
      have ends := Lexeme.all_endsInLine _ _ mem t.kind rfl
      rw [isLast] at ends
      simpa using ends
    have stop : t.span.stop = Lexeme.bytes (before ++ cs) + c.utf8Size := by
      rw [place, isLast]
      simp [Lexeme.bytes_append, Lexeme.bytes, Nat.add_assoc]
    have text' : src.toList = (before ++ cs) ++ c :: behind := by simp [text, isLast]
    rw [stop]
    exact LineTable.not_mem_starts_ofSource text' noNewline
  | faulty mem _ _ fault => exact absurd (faultOf?_eq_none faultless _ mem) fault
  | semi mem isSemi =>
    rw [isSemi] at wide
    exact absurd wide (Nat.lt_irrefl _)
  | last isSemi =>
    rw [isSemi] at wide
    exact absurd wide (Nat.lt_irrefl _)

/-- Where a token of a source ends no comment ends. -/
theorem stop_ne_stop_of_comment : ∀ t ∈ (ofSource src).tokens, t.span.start < t.span.stop →
    ∀ c ∈ (ofSource src).comments, c.span.stop ≠ t.span.stop := by
  intro t mem wide c isIn same
  have wide' := comments_solid c isIn
  rcases tokens_apart_comments faultless t mem c isIn with before | behind
  · omega
  · omega

end Faultless

end Scan

end GoLayout
