import GoLayout.Proofs.Token.Comment
import GoLayout.Proofs.Token.Place

/-!
Every byte of a source is accounted for. Lexemes are written one behind the other without gaps, so
tokens and comments lie apart from each other, and where neither a token nor a comment lies there
are blanks and line ends only, or the mark at the beginning of the source.
-/

namespace GoLayout

/-! ### Lexemes without gaps -/

namespace Lexeme

/-- The characters of blanks and newlines. -/
def isWhite (c : Char) : Bool := isBlank c || isLineEnd c

/-- The lexeme can be written with these characters. -/
structure Writes (lexeme : Lexeme) (taken : List Char) : Prop where
  spelled : ∀ text ∈ lexeme.text?, text.toList = taken
  white : lexeme = .blank ∨ lexeme = .newline → ∀ c ∈ taken, isWhite c

theorem blank?_white {cs : List Char} : ∀ r ∈ blank? cs, ∀ c ∈ r.2.1, isWhite c := by
  intro r read
  unfold blank? at read
  rw [List.span_eq_takeWhile_dropWhile] at read
  split at read
  · simp at read
  · rename_i taken rest takes parts
    obtain rfl := Option.some.inj read
    obtain ⟨rfl, -⟩ := Prod.mk.inj parts
    intro c mem
    simp [isWhite, List.mem_takeWhile_imp mem]

theorem newline?_white {cs : List Char} : ∀ r ∈ newline? cs, ∀ c ∈ r.2.1, isWhite c := by
  intro r read
  unfold newline? at read
  split at read
  · obtain rfl := Option.some.inj read
    simp [isWhite, isLineEnd]
  · split at read
    · obtain rfl := Option.some.inj read
      simp_all [isWhite]
    · simp at read
  · simp at read

theorem comment?_text {cs : List Char} : ∀ r ∈ comment? cs, r.1.text? ≠ none := by
  intro r read
  unfold comment? at read
  split at read
  · obtain rfl := Option.some.inj read
    simp [text?]
  · split at read
    · obtain rfl := Option.some.inj read
      simp [text?]
    · obtain rfl := Option.some.inj read
      simp [text?]
  · simp at read

/-- The reader that a lexeme comes from. -/
inductive ReadBy (c : Char) (cs : List Char) (r : Reading) : Prop where
  | blank (found : r ∈ blank? (c :: cs))
  | newline (found : r ∈ newline? (c :: cs))
  | comment (found : r ∈ comment? (c :: cs))
  | word (found : r ∈ word? (c :: cs))
  | number (found : r ∈ number? (c :: cs))
  | quoted (found : r ∈ quoted? (c :: cs))
  | mark (found : r ∈ mark? (c :: cs))
  | stray (fault : LexFault) (isStray : r.1 = .stray fault)

theorem read_by (c : Char) (cs : List Char) : ReadBy c cs (read c cs) := by
  unfold read
  dsimp only
  generalize found : (blank? (c :: cs) <|> newline? (c :: cs) <|> comment? (c :: cs) <|>
    word? (c :: cs) <|> number? (c :: cs) <|> quoted? (c :: cs) <|> mark? (c :: cs)) = reading
  cases reading with
  | none => exact .stray _ rfl
  | some r =>
    rcases mem_orElse found with blank | found
    · exact .blank blank
    rcases mem_orElse found with newline | found
    · exact .newline newline
    rcases mem_orElse found with comment | found
    · exact .comment comment
    rcases mem_orElse found with word | found
    · exact .word word
    rcases mem_orElse found with number | found
    · exact .number number
    rcases mem_orElse found with quoted | mark
    · exact .quoted quoted
    · exact .mark mark

theorem ReadBy.white {c : Char} {cs : List Char} {r : Reading} (h : ReadBy c cs r)
    (space : r.1 = .blank ∨ r.1 = .newline) : ∀ c ∈ r.2.1, isWhite c := by
  have noText : r.1.text? = none := by
    rcases space with isBlank | isNewline
    · rw [isBlank]
      rfl
    · rw [isNewline]
      rfl
  have noToken : ¬ ∃ kind, r.1 = .token kind := by
    rintro ⟨kind, isToken⟩
    rw [isToken] at noText
    nomatch noText
  cases h with
  | blank found => exact blank?_white r found
  | newline found => exact newline?_white r found
  | comment found => exact absurd noText (comment?_text r found)
  | word found => exact absurd (word?_eq r found) noToken
  | number found => exact absurd (number?_eq r found) noToken
  | quoted found => exact absurd (quoted?_eq r found) noToken
  | mark found => exact absurd (mark?_eq r found) noToken
  | stray fault isStray => rw [isStray] at space; simp at space

theorem read_writes (c : Char) (cs : List Char) : Writes (read c cs).1 (read c cs).2.1 :=
  ⟨(read_of c cs).spelled, (read_by c cs).white⟩

/-- Lexemes written one behind the other from `pos` on, up to the end of the text. -/
inductive Written : (pos : Nat) → List Char → List (Lexeme × Span) → Prop where
  | nil (pos : Nat) : Written pos [] []
  | cons {pos : Nat} {taken rest : List Char} {lexeme : Lexeme} {ls : List (Lexeme × Span)}
      (takes : taken ≠ []) (writes : lexeme.Writes taken)
      (behind : Written (pos + bytes taken) rest ls) :
      Written pos (taken ++ rest) ((lexeme, ⟨pos, pos + bytes taken⟩) :: ls)

theorem readAll_written {pos fuel : Nat} {cs : List Char} (enough : cs.length ≤ fuel) :
    Written pos cs (readAll pos fuel cs) := by
  induction fuel generalizing pos cs with
  | zero =>
    obtain rfl := List.length_eq_zero_iff.mp (Nat.le_zero.mp enough)
    exact .nil pos
  | succ fuel ih =>
    cases cs with
    | nil => exact .nil pos
    | cons c cs =>
      obtain ⟨parts, takes, -⟩ := read_of c cs
      have writes := read_writes c cs
      unfold readAll
      generalize read c cs = reading at parts takes writes ⊢
      obtain ⟨lexeme, taken, rest⟩ := reading
      dsimp only at parts takes writes ⊢
      have shorter := congrArg List.length parts
      have some := List.length_pos_iff.mpr takes
      simp only [List.length_append, List.length_cons] at shorter enough
      rw [← parts]
      exact .cons takes writes (ih (by omega))

namespace Written

variable {pos : Nat} {cs : List Char} {ls : List (Lexeme × Span)}

theorem le_start (h : Written pos cs ls) : ∀ l ∈ ls, pos ≤ l.2.start := by
  induction h with
  | nil => simp
  | cons takes writes behind ih =>
    refine List.forall_mem_cons.mpr ⟨Nat.le_refl _, fun l mem => ?_⟩
    have := ih l mem
    omega

theorem solid (h : Written pos cs ls) : ∀ l ∈ ls, l.2.start < l.2.stop := by
  induction h with
  | nil => simp
  | cons takes writes behind ih =>
    refine List.forall_mem_cons.mpr ⟨?_, ih⟩
    have := bytes_pos takes
    dsimp only
    omega

/-- No lexeme reaches into a later one. -/
theorem apart (h : Written pos cs ls) : ls.Pairwise fun l l' => l.2.stop ≤ l'.2.start := by
  induction h with
  | nil => exact .nil
  | cons takes writes behind ih => exact .cons behind.le_start ih

/-- Every character belongs to a lexeme, with all its bytes. -/
theorem covers (h : Written pos cs ls) {before behind : List Char} {c : Char}
    (text : cs = before ++ c :: behind) :
    ∃ l ∈ ls, l.2.start ≤ pos + bytes before ∧ pos + bytes before + c.utf8Size ≤ l.2.stop ∧
      ∃ taken, l.1.Writes taken ∧ c ∈ taken := by
  induction h generalizing before with
  | nil => simp at text
  | @cons pos taken rest lexeme ls takes writes _ ih =>
    rcases List.append_eq_append_iff.mp text with ⟨front, rfl, later⟩ | ⟨tail, rfl, later⟩
    · obtain ⟨l, mem, low, high, others⟩ := ih later
      rw [bytes_append, ← Nat.add_assoc]
      exact ⟨l, List.mem_cons_of_mem _ mem, low, high, others⟩
    · cases tail with
      | nil =>
        obtain ⟨l, mem, low, high, others⟩ := ih (show rest = [] ++ c :: behind from later.symm)
        simp only [bytes, List.append_nil, Nat.add_zero] at low high
        exact ⟨l, List.mem_cons_of_mem _ mem, low, high, others⟩
      | cons d tail =>
        obtain ⟨rfl, -⟩ := List.cons.inj later
        refine ⟨_, List.mem_cons_self, Nat.le_add_right _ _, ?_, _, writes, by simp⟩
        simp only [bytes_append, bytes]
        omega

end Written

/-- Behind the mark at its beginning, if there is one, a source is written in lexemes. -/
theorem all_written (cs : List Char) : Written 0 cs (all cs) ∨
    ∃ rest ls, cs = byteOrderMark :: rest ∧
      all cs = (.blank, ⟨0, bytes [byteOrderMark]⟩) :: ls ∧
      Written (bytes [byteOrderMark]) rest ls := by
  unfold all
  split
  · rename_i c cs
    split
    · rename_i marked
      subst marked
      exact .inr ⟨cs, _, rfl, rfl, readAll_written (Nat.le_refl _)⟩
    · exact .inl (readAll_written (Nat.le_refl _))
  · exact .inl (.nil 0)

theorem all_solid (cs : List Char) : ∀ l ∈ all cs, l.2.start < l.2.stop := by
  rcases all_written cs with written | ⟨rest, ls, -, lexemes, written⟩
  · exact written.solid
  · rw [lexemes]
    exact List.forall_mem_cons.mpr ⟨bytes_cons_pos byteOrderMark [], written.solid⟩

theorem all_apart (cs : List Char) : (all cs).Pairwise fun l l' => l.2.stop ≤ l'.2.start := by
  rcases all_written cs with written | ⟨rest, ls, -, lexemes, written⟩
  · exact written.apart
  · rw [lexemes]
    exact .cons written.le_start written.apart

theorem eq_or_apart {cs : List Char} {l l' : Lexeme × Span} (mem : l ∈ all cs)
    (mem' : l' ∈ all cs) : l = l' ∨ l.2.stop ≤ l'.2.start ∨ l'.2.stop ≤ l.2.start := by
  let Apart (l l' : Lexeme × Span) : Prop := l.2.stop ≤ l'.2.start ∨ l'.2.stop ≤ l.2.start
  have eitherWay : Std.Symm Apart := ⟨fun _ _ => Or.symm⟩
  have apart : (all cs).Pairwise Apart := (all_apart cs).imp .inl
  by_cases same : l = l'
  · exact .inl same
  · exact .inr (apart.forall mem mem' same)

/-- Every character of a source belongs to a lexeme with all its bytes. If this is a blank or a
newline, the character is white, or it is the mark at the beginning. -/
theorem all_covers {cs before behind : List Char} {c : Char}
    (text : cs = before ++ c :: behind) :
    ∃ l ∈ all cs, l.2.start ≤ bytes before ∧ bytes before + c.utf8Size ≤ l.2.stop ∧
      (l.1 = .blank ∨ l.1 = .newline → isWhite c ∨ c = byteOrderMark ∧ before = []) := by
  rcases all_written cs with written | ⟨rest, ls, marked, lexemes, written⟩
  · obtain ⟨l, mem, low, high, taken, writes, inside⟩ := written.covers text
    rw [Nat.zero_add] at low high
    exact ⟨l, mem, low, high, fun space => .inl (writes.white space c inside)⟩
  · rw [lexemes]
    cases before with
    | nil =>
      obtain ⟨rfl, -⟩ := List.cons.inj (marked.symm.trans text)
      exact ⟨_, List.mem_cons_self, Nat.zero_le _, by simp [bytes], fun _ => .inr ⟨rfl, rfl⟩⟩
    | cons d before =>
      obtain ⟨rfl, later⟩ := List.cons.inj (marked.symm.trans text)
      obtain ⟨l, mem, low, high, taken, writes, inside⟩ := written.covers later
      rw [← bytes_append] at low high
      exact ⟨l, List.mem_cons_of_mem _ mem, low, high, fun space =>
        .inl (writes.white space c inside)⟩

end Lexeme

/-! ### Tokens and comments apart -/

namespace Scan

variable {size : Nat} {open? : Bool} {lexemes : List (Lexeme × Span)}

/-- Where a token comes from: it is a lexeme or stands for a faulty one, or it is a semicolon before
a lexeme or at the end. -/
inductive Origin (size : Nat) (lexemes : List (Lexeme × Span)) (t : Token) : Prop where
  | token (mem : (.token t.kind, t.span) ∈ lexemes)
  | faulty {l : Lexeme × Span} (mem : l ∈ lexemes) (place : t.span = l.2)
      (kind : t.kind = .invalid) (fault : faultOf? l ≠ none)
  | semi {l : Lexeme × Span} (mem : l ∈ lexemes) (isSemi : t = autoSemi l.2.start)
  | last (isSemi : t = autoSemi size)

theorem Origin.weaken {l : Lexeme × Span} {t : Token} (h : Origin size lexemes t) :
    Origin size (l :: lexemes) t := by
  cases h with
  | token mem => exact .token (List.mem_cons_of_mem _ mem)
  | faulty mem place kind fault => exact .faulty (List.mem_cons_of_mem _ mem) place kind fault
  | semi mem isSemi => exact .semi (List.mem_cons_of_mem _ mem) isSemi
  | last isSemi => exact .last isSemi

theorem origin_of_mem_tokensOf : ∀ t ∈ tokensOf size open? lexemes, Origin size lexemes t := by
  induction lexemes generalizing open? with
  | nil =>
    intro t mem
    unfold tokensOf at mem
    split at mem
    · exact .last (List.mem_singleton.mp mem)
    · simp at mem
  | cons l rest ih =>
    have behind {open?} : ∀ t ∈ tokensOf size open? rest, Origin size (l :: rest) t :=
      fun t mem => (ih t mem).weaken
    obtain ⟨lexeme, span⟩ := l
    unfold tokensOf
    split
    · exact List.forall_mem_cons.mpr ⟨.token List.mem_cons_self, behind⟩
    · exact List.forall_mem_cons.mpr ⟨.faulty List.mem_cons_self rfl rfl (by simp [faultOf?]), behind⟩
    · exact List.forall_mem_cons.mpr ⟨.faulty List.mem_cons_self rfl rfl (by simp [faultOf?]), behind⟩
    · split
      · exact List.forall_mem_cons.mpr ⟨.semi List.mem_cons_self rfl, behind⟩
      · exact behind

/-- A token keeps clear of a place that no lexeme reaches into. -/
theorem Origin.start_ge {pos : Nat} {t : Token} (h : Origin size lexemes t)
    (below : ∀ l ∈ lexemes, pos ≤ l.2.start) (within : pos ≤ size) : pos ≤ t.span.start := by
  cases h with
  | token mem => exact below _ mem
  | faulty mem place => rw [place]; exact below _ mem
  | semi mem isSemi => rw [isSemi]; exact below _ mem
  | last isSemi => rw [isSemi]; exact within

theorem tokensOf_apart (apart : lexemes.Pairwise fun l l' => l.2.stop ≤ l'.2.start)
    (solid : ∀ l ∈ lexemes, l.2.start < l.2.stop) (within : ∀ l ∈ lexemes, l.2.stop ≤ size) :
    (tokensOf size open? lexemes).Pairwise fun t t' => t.span.stop ≤ t'.span.start := by
  induction lexemes generalizing open? with
  | nil =>
    unfold tokensOf
    split <;> simp
  | cons l rest ih =>
    obtain ⟨first, apartBehind⟩ := List.pairwise_cons.mp apart
    obtain ⟨wide, solidBehind⟩ := List.forall_mem_cons.mp solid
    obtain ⟨here, withinBehind⟩ := List.forall_mem_cons.mp within
    have behind {open?} : ∀ t ∈ tokensOf size open? rest, l.2.stop ≤ t.span.start :=
      fun t mem => (origin_of_mem_tokensOf t mem).start_ge first here
    have before {open?} : ∀ t ∈ tokensOf size open? rest, l.2.start ≤ t.span.start :=
      fun t mem => Nat.le_trans (Nat.le_of_lt wide) (behind t mem)
    obtain ⟨lexeme, span⟩ := l
    unfold tokensOf
    split
    · exact .cons behind (ih apartBehind solidBehind withinBehind)
    · exact .cons behind (ih apartBehind solidBehind withinBehind)
    · exact .cons behind (ih apartBehind solidBehind withinBehind)
    · split
      · exact .cons before (ih apartBehind solidBehind withinBehind)
      · exact ih apartBehind solidBehind withinBehind

/-- Every token among the lexemes is kept. -/
theorem mem_tokensOf {kind : TokenKind} {span : Span} (mem : (.token kind, span) ∈ lexemes) :
    ⟨kind, span⟩ ∈ tokensOf size open? lexemes := by
  induction lexemes generalizing open? with
  | nil => nomatch mem
  | cons l rest ih =>
    rcases List.mem_cons.mp mem with rfl | later
    · exact List.mem_cons_self
    · obtain ⟨lexeme, span⟩ := l
      unfold tokensOf
      split
      · exact List.mem_cons_of_mem _ (ih later)
      · exact List.mem_cons_of_mem _ (ih later)
      · exact List.mem_cons_of_mem _ (ih later)
      · split
        · exact List.mem_cons_of_mem _ (ih later)
        · exact ih later

/-- Each fault is told once, where a token that is none stands. -/
theorem faults_places (valid : ∀ l ∈ lexemes, l.1 ≠ .token .invalid) :
    (lexemes.filterMap faultOf?).map (·.span) =
      ((tokensOf size open? lexemes).filter (·.kind == .invalid)).map (·.span) := by
  induction lexemes generalizing open? with
  | nil =>
    unfold tokensOf
    split <;> rfl
  | cons l rest ih =>
    obtain ⟨here, behind⟩ := List.forall_mem_cons.mp valid
    obtain ⟨lexeme, span⟩ := l
    unfold tokensOf
    split
    · rename_i kind
      have valid : kind ≠ .invalid := fun same => here (congrArg Lexeme.token same)
      rw [List.filter_cons_of_neg (by simpa using valid)]
      exact ih behind
    · exact congrArg (span :: ·) (ih behind)
    · exact congrArg (span :: ·) (ih behind)
    · rename_i noToken noStray noOpen
      have faultless : faultOf? (lexeme, span) = none := by
        cases lexeme with
        | stray fault => exact absurd rfl (noStray fault)
        | openComment text => exact absurd rfl (noOpen text)
        | blank | newline | token _ | comment _ _ => rfl
      rw [List.filterMap_cons_none faultless]
      split
      · exact ih behind
      · exact ih behind

end Scan

/-! ### Every byte of a source -/

/-- Whether a token is a semicolon that has no characters. -/
def Token.isAutomatic (t : Token) : Bool := t.kind == .mark .semi && t.span.start == t.span.stop

/-- The characters that a token is written with. -/
def Token.characters (t : Token) : List Char :=
  if t.isAutomatic then [] else t.kind.spelling.toList

theorem Token.isAutomatic_of_lt {t : Token} (h : t.span.start < t.span.stop) :
    t.isAutomatic = false := by
  simp [isAutomatic, Nat.ne_of_lt h]

theorem Token.isAutomatic_autoSemi (pos : Nat) : (Scan.autoSemi pos).isAutomatic := by
  simp [isAutomatic, Scan.autoSemi, Span.point]

/-- The span cuts these characters out of the text. -/
def Span.Cuts (text : List Char) (s : Span) (part : List Char) : Prop :=
  ∃ before behind, text = before ++ (part ++ behind) ∧
    s = ⟨Lexeme.bytes before, Lexeme.bytes before + Lexeme.bytes part⟩

theorem Lexeme.Stands.cuts {text : List Char} {l : Lexeme × Span} {word : String}
    (stands : Stands text l) (spelled : word ∈ l.1.text?) : l.2.Cuts text word.toList := by
  obtain ⟨before, taken, behind, parts, -, same, place⟩ := stands
  rw [same word spelled]
  exact ⟨before, behind, parts, place⟩

theorem Lexeme.Stands.cuts_point {text : List Char} {l : Lexeme × Span} (stands : Stands text l) :
    (Span.point l.2.start).Cuts text [] := by
  obtain ⟨before, taken, behind, parts, -, -, place⟩ := stands
  exact ⟨before, taken ++ behind, parts, by rw [place]; rfl⟩

namespace Scan

variable {src : String}

theorem tokens_origin : ∀ t ∈ (ofSource src).tokens,
    Origin src.utf8ByteSize (Lexeme.all src.toList) t := origin_of_mem_tokensOf

/-- Tokens have characters, but for the semicolons that stand for the end of a line. -/
theorem tokens_solid : ∀ t ∈ (ofSource src).tokens,
    t.span.stop ≤ src.utf8ByteSize ∧ (t.span.start < t.span.stop ∨ t.isAutomatic) := by
  intro t mem
  have lies {l : Lexeme × Span} (mem : l ∈ Lexeme.all src.toList) :
      l.2.stop ≤ src.utf8ByteSize ∧ (l.2.start < l.2.stop ∨ t.isAutomatic) :=
    ⟨(Lexeme.all_within src l mem).2, .inl (Lexeme.all_solid _ l mem)⟩
  cases tokens_origin t mem with
  | token mem => exact lies mem
  | faulty mem place => rw [place]; exact lies mem
  | semi mem isSemi =>
    rw [isSemi]
    exact ⟨Nat.le_of_lt (Lexeme.all_within src _ mem).1, .inr (Token.isAutomatic_autoSemi _)⟩
  | last isSemi => rw [isSemi]; exact ⟨Nat.le_refl _, .inr (Token.isAutomatic_autoSemi _)⟩

theorem tokens_forward : ∀ t ∈ (ofSource src).tokens, t.span.start ≤ t.span.stop := by
  intro t mem
  rcases (tokens_solid t mem).2 with wide | isAutomatic
  · exact Nat.le_of_lt wide
  · have empty : t.span.start = t.span.stop := by
      simpa using (Bool.and_eq_true_iff.mp isAutomatic).2
    exact Nat.le_of_eq empty

theorem tokens_apart :
    (ofSource src).tokens.Pairwise fun t t' => t.span.stop ≤ t'.span.start :=
  tokensOf_apart (Lexeme.all_apart _) (Lexeme.all_solid _) fun l mem =>
    (Lexeme.all_within src l mem).2

theorem faults_spans : (ofSource src).faults.map (·.span) =
    ((ofSource src).tokens.filter (·.kind == .invalid)).map (·.span) :=
  faults_places (Lexeme.all_valid src.toList)

theorem comments_apart :
    (ofSource src).comments.Pairwise fun c c' => c.span.stop ≤ c'.span.start := by
  refine (Lexeme.all_apart src.toList).filterMap _ ?_
  intro l l' apart c isComment c' isComment'
  rw [(place_of_commentOf? isComment).1, (place_of_commentOf? isComment').1]
  exact apart

theorem comments_cut : ∀ c ∈ (ofSource src).comments, c.span.Cuts src.toList c.text.toList := by
  intro c mem
  obtain ⟨l, found, isComment⟩ := List.mem_filterMap.mp mem
  obtain ⟨place, spelled⟩ := place_of_commentOf? isComment
  rw [place]
  exact (Lexeme.all_stands _ l found).cuts spelled

section Faultless

variable (faultless : (ofSource src).faults = [])
include faultless

theorem faultOf?_eq_none : ∀ l ∈ Lexeme.all src.toList, faultOf? l = none :=
  List.filterMap_eq_nil_iff.mp faultless

theorem tokens_cut : ∀ t ∈ (ofSource src).tokens, t.span.Cuts src.toList t.characters := by
  intro t mem
  cases tokens_origin t mem with
  | token mem =>
    have wide := Lexeme.all_solid _ _ mem
    rw [Token.characters, Token.isAutomatic_of_lt wide]
    exact (Lexeme.all_stands _ _ mem).cuts rfl
  | faulty mem _ _ fault => exact absurd (faultOf?_eq_none faultless _ mem) fault
  | semi mem isSemi =>
    rw [isSemi, Token.characters, Token.isAutomatic_autoSemi]
    exact (Lexeme.all_stands _ _ mem).cuts_point
  | last isSemi =>
    rw [isSemi, Token.characters, Token.isAutomatic_autoSemi]
    refine ⟨src.toList, [], by simp, ?_⟩
    simp [autoSemi, Span.point, Lexeme.bytes_toList, Lexeme.bytes]

theorem tokens_apart_comments : ∀ t ∈ (ofSource src).tokens, ∀ c ∈ (ofSource src).comments,
    t.span.stop ≤ c.span.start ∨ c.span.stop ≤ t.span.start := by
  intro t mem c isIn
  obtain ⟨l, found, isComment⟩ := List.mem_filterMap.mp isIn
  rw [(place_of_commentOf? isComment).1]
  cases tokens_origin t mem with
  | token mem =>
    refine (Lexeme.eq_or_apart mem found).resolve_left ?_
    rintro rfl
    nomatch isComment
  | faulty mem _ _ fault => exact absurd (faultOf?_eq_none faultless _ mem) fault
  | @semi l' mem isSemi =>
    rw [isSemi]
    rcases Lexeme.eq_or_apart mem found with rfl | before | behind
    · exact .inl (Nat.le_refl _)
    · exact .inl (Nat.le_trans (Nat.le_of_lt (Lexeme.all_solid _ l' mem)) before)
    · exact .inr behind
  | last isSemi => rw [isSemi]; exact .inr (Lexeme.all_within src l found).2

theorem covered {before behind : List Char} {c : Char} {o : Nat}
    (text : src.toList = before ++ c :: behind) (low : Lexeme.bytes before ≤ o)
    (high : o < Lexeme.bytes before + c.utf8Size) :
    (∃ t ∈ (ofSource src).tokens, t.span.start ≤ o ∧ o < t.span.stop) ∨
      (∃ k ∈ (ofSource src).comments, k.span.start ≤ o ∧ o < k.span.stop) ∨
      c ∈ [' ', '\t', '\x0c', '\n', '\r'] ∨ c = Lexeme.byteOrderMark ∧ before = [] := by
  obtain ⟨⟨lexeme, span⟩, mem, start, stop, space⟩ := Lexeme.all_covers text
  have inside : span.start ≤ o ∧ o < span.stop :=
    ⟨Nat.le_trans start low, Nat.lt_of_lt_of_le high stop⟩
  have white : lexeme = .blank ∨ lexeme = .newline →
      c ∈ [' ', '\t', '\x0c', '\n', '\r'] ∨ c = Lexeme.byteOrderMark ∧ before = [] := by
    intro isSpace
    refine (space isSpace).imp_left fun isWhite => ?_
    simpa [Lexeme.isWhite, Lexeme.isBlank, Lexeme.isLineEnd, or_assoc] using isWhite
  cases lexeme with
  | token kind => exact .inl ⟨⟨kind, span⟩, mem_tokensOf mem, inside⟩
  | comment kind words =>
    exact .inr (.inl ⟨⟨kind, span, words⟩, List.mem_filterMap.mpr ⟨_, mem, rfl⟩, inside⟩)
  | blank => exact .inr (.inr (white (.inl rfl)))
  | newline => exact .inr (.inr (white (.inr rfl)))
  | stray _ | openComment _ => simpa [faultOf?] using faultOf?_eq_none faultless _ mem

end Faultless

/-- A scan accounts for every byte of the source. The spans of tokens lie in the source, one behind
the other, and only automatic semicolons are empty; faults stand exactly where tokens are none.
Without faults, tokens and comments are apart from each other, their spans cut their texts out of
the source, and any other byte belongs to a blank, to a line end or to the mark at the beginning. -/
theorem accounts_for_bytes (src : String) :
    (∀ t ∈ (ofSource src).tokens, t.span.start ≤ t.span.stop ∧ t.span.stop ≤ src.utf8ByteSize ∧
        (t.span.start < t.span.stop ∨ t.isAutomatic)) ∧
      (ofSource src).tokens.Pairwise (fun t t' => t.span.stop ≤ t'.span.start) ∧
      (ofSource src).faults.map (·.span) =
        ((ofSource src).tokens.filter (·.kind == .invalid)).map (·.span) ∧
      ((ofSource src).faults = [] →
        (ofSource src).comments.Pairwise (fun c c' => c.span.stop ≤ c'.span.start) ∧
        (∀ t ∈ (ofSource src).tokens, ∀ c ∈ (ofSource src).comments,
          t.span.stop ≤ c.span.start ∨ c.span.stop ≤ t.span.start) ∧
        (∀ t ∈ (ofSource src).tokens, t.span.Cuts src.toList t.characters) ∧
        (∀ c ∈ (ofSource src).comments, c.span.Cuts src.toList c.text.toList) ∧
        ∀ before c behind o, src.toList = before ++ c :: behind →
          Lexeme.bytes before ≤ o → o < Lexeme.bytes before + c.utf8Size →
          (∃ t ∈ (ofSource src).tokens, t.span.start ≤ o ∧ o < t.span.stop) ∨
            (∃ k ∈ (ofSource src).comments, k.span.start ≤ o ∧ o < k.span.stop) ∨
            c ∈ [' ', '\t', '\x0c', '\n', '\r'] ∨
            c = Lexeme.byteOrderMark ∧ before = []) := by
  refine ⟨?_, tokens_apart, faults_spans, ?_⟩
  · intro t mem
    obtain ⟨within, wide | isAutomatic⟩ := tokens_solid t mem
    · exact ⟨Nat.le_of_lt wide, within, .inl wide⟩
    · have empty : t.span.start = t.span.stop := by
        simpa using (Bool.and_eq_true_iff.mp isAutomatic).2
      exact ⟨Nat.le_of_eq empty, within, .inr isAutomatic⟩
  · intro faultless
    refine ⟨comments_apart, tokens_apart_comments faultless, tokens_cut faultless, comments_cut, ?_⟩
    intro before c behind o text low high
    exact covered faultless text low high

/-- A source that starts with the mark and has a comment is accounted for without faults. -/
theorem accounts_for_bytes_marked :
    (ofSource "\ufeffx /* y */\n").faults = [] ∧
      ∀ t ∈ (ofSource "\ufeffx /* y */\n").tokens,
        t.span.Cuts "\ufeffx /* y */\n".toList t.characters := by
  have faultless : (ofSource "\ufeffx /* y */\n").faults = [] := by decide +kernel
  exact ⟨faultless, ((accounts_for_bytes _).2.2.2 faultless).2.2.1⟩

end Scan

end GoLayout
