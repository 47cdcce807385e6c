import GoLayout.Proofs.LineTable.History
import GoLayout.Proofs.Token.Lexeme

/-!
Where lexemes stand. They come one behind the other, each written in the source at its span, so
the line on which one ends follows from the line on which it starts and from its text.
-/

namespace GoLayout

/-! ### Lines and newlines -/

namespace LineTable

theorem countP_afterNewlines {pos o : Nat} {before behind : List Char} {c : Char}
    (low : pos + Lexeme.bytes before ≤ o) (high : o < pos + Lexeme.bytes before + c.utf8Size) :
    (afterNewlines pos (before ++ c :: behind)).countP (· ≤ o) = before.count '\n' := by
  induction before generalizing pos with
  | nil =>
    rw [List.nil_append, List.count_nil, List.countP_eq_zero]
    intro s mem
    simp only [Lexeme.bytes, Nat.add_zero] at high
    have later : o < s := by
      simp only [afterNewlines] at mem
      split at mem
      · rcases List.mem_cons.mp mem with rfl | mem
        · exact high
        · exact high.trans (lt_of_mem_afterNewlines mem)
      · exact high.trans (lt_of_mem_afterNewlines mem)
    simpa using later
  | cons d before ih =>
    simp only [Lexeme.bytes] at low high
    have rest := @ih (pos + d.utf8Size) (by omega) (by omega)
    rw [List.cons_append, afterNewlines, List.count_cons]
    by_cases isNewline : d = '\n'
    · have here : pos + d.utf8Size ≤ o := by omega
      rw [if_pos isNewline, List.countP_cons, rest]
      simp [isNewline ▸ here, isNewline]
    · simp [isNewline, rest]

/-- The line of a byte counts the newlines before the character that the byte belongs to. -/
theorem line_ofSource {src : String} {before behind : List Char} {c : Char} {o : Nat}
    (text : src.toList = before ++ c :: behind) (low : Lexeme.bytes before ≤ o)
    (high : o < Lexeme.bytes before + c.utf8Size) :
    (ofSource src).line o = before.count '\n' + 1 := by
  have size : o < src.utf8ByteSize := by
    rw [← Lexeme.bytes_toList, text, Lexeme.bytes_append, Lexeme.bytes]
    omega
  have within : (afterNewlines 0 src.toList).countP
      (fun s => decide (s ≤ o) && decide (s < src.utf8ByteSize)) =
        (afterNewlines 0 src.toList).countP (· ≤ o) := by
    apply List.countP_congr
    intro s _
    simp only [Bool.and_eq_true, decide_eq_true_eq]
    omega
  rw [(ordered_ofSource src).line_eq_countP, ofSource, List.countP_cons, List.countP_filter, within,
    text, countP_afterNewlines (by omega) (by omega)]
  simp

end LineTable

/-! ### Lexemes in the source -/

namespace Lexeme

/-- The lexeme is written in the text where its span tells. -/
def Stands (text : List Char) (l : Lexeme × Span) : Prop :=
  ∃ before taken behind, text = before ++ (taken ++ behind) ∧ taken ≠ [] ∧
    (∀ word ∈ l.1.text?, word.toList = taken) ∧ l.2 = ⟨bytes before, bytes before + bytes taken⟩

theorem readAll_stands (before : List Char) (fuel : Nat) (cs : List Char) :
    ∀ l ∈ readAll (bytes before) fuel cs, Stands (before ++ cs) l := by
  induction fuel generalizing before cs with
  | zero => simp [readAll]
  | succ fuel ih =>
    cases cs with
    | nil => simp [readAll]
    | cons c cs =>
      obtain ⟨parts, takes, spelled⟩ := read_of c cs
      unfold readAll
      generalize read c cs = reading at parts takes spelled ⊢
      obtain ⟨lexeme, taken, rest⟩ := reading
      dsimp only at parts takes spelled ⊢
      rw [← parts]
      refine List.forall_mem_cons.mpr ⟨⟨before, taken, rest, rfl, takes, spelled, rfl⟩, ?_⟩
      rw [← bytes_append, ← List.append_assoc]
      exact ih (before ++ taken) rest

theorem all_stands (cs : List Char) : ∀ l ∈ all cs, Stands cs l := by
  unfold all
  split
  · rename_i c cs
    split
    · have here : Stands (c :: cs) (.blank, ⟨0, bytes [c]⟩) :=
        ⟨[], [c], cs, rfl, by simp, by simp [text?], by simp [bytes]⟩
      exact List.forall_mem_cons.mpr ⟨here, readAll_stands [c] _ cs⟩
    · exact readAll_stands [] _ _
  · simp

theorem all_valid (cs : List Char) : ∀ l ∈ all cs, l.1 ≠ .token .invalid := by
  intro l mem isInvalid
  obtain ⟨before, taken, behind, -, takes, spelled, -⟩ := all_stands cs l mem
  exact takes (spelled "" (by rw [isInvalid]; rfl)).symm

/-- Every lexeme starts behind the start of the one before it. -/
def Ascending (lexemes : List (Lexeme × Span)) : Prop :=
  lexemes.Pairwise fun l l' => l.2.start < l'.2.start

theorem le_start_of_mem_readAll {pos fuel : Nat} {cs : List Char} :
    ∀ l ∈ readAll pos fuel cs, pos ≤ l.2.start := by
  induction fuel generalizing pos cs with
  | zero => simp [readAll]
  | succ fuel ih =>
    cases cs with
    | nil => simp [readAll]
    | cons c cs =>
      refine List.forall_mem_cons.mpr ⟨Nat.le_refl pos, ?_⟩
      intro l mem
      have later := ih l mem
      omega

theorem bytes_pos {cs : List Char} (h : cs ≠ []) : 0 < bytes cs := by
  cases cs with
  | nil => exact absurd rfl h
  | cons c cs => exact bytes_cons_pos c cs

theorem readAll_ascending (pos fuel : Nat) (cs : List Char) : Ascending (readAll pos fuel cs) := by
  induction fuel generalizing pos cs with
  | zero => exact .nil
  | succ fuel ih =>
    cases cs with
    | nil => exact .nil
    | cons c cs =>
      have takes := bytes_pos (read_of c cs).takes
      unfold readAll
      generalize read c cs = reading at takes ⊢
      obtain ⟨lexeme, taken, rest⟩ := reading
      refine .cons ?_ (ih _ _)
      intro l mem
      have later := le_start_of_mem_readAll l mem
      change pos < l.2.start
      dsimp only at takes
      omega

theorem all_ascending (cs : List Char) : Ascending (all cs) := by
  unfold all
  split
  · rename_i c cs
    split
    · refine .cons ?_ (readAll_ascending _ _ _)
      intro l mem
      have later := le_start_of_mem_readAll l mem
      have takes := bytes_cons_pos c []
      change 0 < l.2.start
      omega
    · exact readAll_ascending _ _ _
  · exact .nil

end Lexeme

/-- The newlines in a text, one that ends it apart. -/
def breaksIn (text : String) : Nat := text.toList.dropLast.count '\n'

/-- A span that holds this text in a source: its last byte is as many lines below its first one
as the text has newlines. -/
structure Span.Holds (lines : LineTable) (text : String) (s : Span) : Prop where
  stop_pos : 0 < s.stop
  lastLine : lines.line (s.stop - 1) = lines.line s.start + breaksIn text

theorem Lexeme.Stands.holds {src : String} {l : Lexeme × Span} {text : String}
    (stands : Lexeme.Stands src.toList l) (spelled : text ∈ l.1.text?) :
    l.2.Holds (LineTable.ofSource src) text := by
  obtain ⟨before, taken, behind, parts, takes, same, place⟩ := stands
  obtain rfl := same text spelled
  obtain ⟨c, cs, isFirst⟩ := List.exists_cons_of_ne_nil takes
  obtain ⟨ds, d, isLast⟩ := (List.eq_nil_or_concat' text.toList).resolve_left takes
  have first : (LineTable.ofSource src).line l.2.start = before.count '\n' + 1 := by
    have size := c.utf8Size_pos
    have parts : src.toList = before ++ c :: (cs ++ behind) := by rw [parts, isFirst]; rfl
    rw [place]
    exact LineTable.line_ofSource parts (Nat.le_refl _) (by dsimp only; omega)
  have size := d.utf8Size_pos
  have stop : l.2.stop = bytes (before ++ ds) + d.utf8Size := by
    rw [place, isLast, bytes_append, bytes_append, bytes, bytes]
    simp only
    omega
  have last : (LineTable.ofSource src).line (l.2.stop - 1) = (before ++ ds).count '\n' + 1 := by
    have parts : src.toList = (before ++ ds) ++ d :: behind := by simp [parts, isLast]
    exact LineTable.line_ofSource parts (by omega) (by omega)
  refine ⟨by omega, ?_⟩
  rw [first, last, breaksIn, isLast, List.dropLast_concat, List.count_append]
  omega

/-! ### Tokens and comments in the source -/

namespace Scan

variable {size : Nat} {open? : Bool} {lexemes : List (Lexeme × Span)}

/-- A token with characters of its own that is not a stray one is a lexeme. -/
theorem mem_lexemes_of_mem_tokensOf : ∀ t ∈ tokensOf size open? lexemes, t.kind.isSolid →
    t.kind ≠ .invalid → (.token t.kind, t.span) ∈ lexemes := by
  induction lexemes generalizing open? with
  | nil =>
    unfold tokensOf
    split <;> simp [autoSemi, TokenKind.isSolid]
  | cons l rest ih =>
    obtain ⟨lexeme, span⟩ := l
    have behind : ∀ {open?}, ∀ t ∈ tokensOf size open? rest, t.kind.isSolid →
        t.kind ≠ .invalid → (.token t.kind, t.span) ∈ (lexeme, span) :: rest :=
      fun t mem solid valid => List.mem_cons_of_mem _ (ih t mem solid valid)
    unfold tokensOf
    split
    · exact List.forall_mem_cons.mpr ⟨fun _ _ => List.mem_cons_self, behind⟩
    · exact List.forall_mem_cons.mpr ⟨fun _ valid => absurd rfl valid, behind⟩
    · exact List.forall_mem_cons.mpr ⟨fun _ valid => absurd rfl valid, behind⟩
    · split
      · exact List.forall_mem_cons.mpr ⟨by simp [autoSemi, TokenKind.isSolid], behind⟩
      · exact behind

/-- Tokens start where lexemes start, or at the end of the source. -/
theorem start_of_mem_tokensOf : ∀ t ∈ tokensOf size open? lexemes,
    t.span.start = size ∨ ∃ l ∈ lexemes, l.2.start = t.span.start := by
  induction lexemes generalizing open? with
  | nil =>
    unfold tokensOf
    split <;> simp [autoSemi, Span.point]
  | cons l rest ih =>
    obtain ⟨lexeme, span⟩ := l
    have here : span.start = size ∨ ∃ l ∈ (lexeme, span) :: rest, l.2.start = span.start :=
      Or.inr ⟨_, List.mem_cons_self, rfl⟩
    have behind : ∀ {open?}, ∀ t ∈ tokensOf size open? rest,
        t.span.start = size ∨ ∃ l ∈ (lexeme, span) :: rest, l.2.start = t.span.start := by
      intro open? t mem
      rcases ih t mem with atEnd | ⟨l, found, same⟩
      · exact Or.inl atEnd
      · exact Or.inr ⟨l, List.mem_cons_of_mem _ found, same⟩
    unfold tokensOf
    split
    · exact List.forall_mem_cons.mpr ⟨here, behind⟩
    · exact List.forall_mem_cons.mpr ⟨here, behind⟩
    · exact List.forall_mem_cons.mpr ⟨here, behind⟩
    · split
      · exact List.forall_mem_cons.mpr ⟨here, behind⟩
      · exact behind

theorem tokensOf_ascending (ascending : Lexeme.Ascending lexemes)
    (within : ∀ l ∈ lexemes, l.2.start ≤ size) :
    (tokensOf size open? lexemes).Pairwise fun t t' => t.span.start ≤ t'.span.start := by
  induction lexemes generalizing open? with
  | nil =>
    unfold tokensOf
    split <;> simp
  | cons l rest ih =>
    obtain ⟨lexeme, span⟩ := l
    obtain ⟨first, later⟩ := List.pairwise_cons.mp ascending
    obtain ⟨here, bounded⟩ := List.forall_mem_cons.mp within
    have behind : ∀ {open?}, ∀ t ∈ tokensOf size open? rest, span.start ≤ t.span.start := by
      intro open? t mem
      rcases start_of_mem_tokensOf t mem with atEnd | ⟨l, found, same⟩
      · rw [atEnd]
        exact here
      · rw [← same]
        exact Nat.le_of_lt (first l found)
    unfold tokensOf
    split
    · exact .cons behind (ih later bounded)
    · exact .cons behind (ih later bounded)
    · exact .cons behind (ih later bounded)
    · split
      · exact .cons behind (ih later bounded)
      · exact ih later bounded

/-- A text has lexical faults where some token of it is none. -/
theorem faultsOf_eq_nil_iff (spelled : ∀ l ∈ lexemes, l.1 ≠ .token .invalid) :
    lexemes.filterMap faultOf? = [] ↔ ∀ t ∈ tokensOf size open? lexemes, t.kind ≠ .invalid := by
  induction lexemes generalizing open? with
  | nil =>
    unfold tokensOf
    split <;> simp [autoSemi]
  | cons l rest ih =>
    obtain ⟨lexeme, span⟩ := l
    obtain ⟨here, behind⟩ := List.forall_mem_cons.mp spelled
    unfold tokensOf
    split
    · rename_i kind
      have valid : kind ≠ .invalid := fun same => here (congrArg Lexeme.token same)
      rw [List.forall_mem_cons, and_iff_right valid]
      exact ih behind
    · simp [faultOf?]
    · simp [faultOf?]
    · rename_i noToken noStray noOpen
      have faultless : faultOf? (lexeme, span) = none := by
        cases lexeme with
        | stray fault => exact absurd rfl (noStray fault)
        | openComment text => exact absurd rfl (noOpen text)
        | _ => rfl
      rw [List.filterMap_cons_none faultless]
      split
      · have valid : (autoSemi span.start).kind ≠ .invalid := by simp [autoSemi]
        rw [List.forall_mem_cons, and_iff_right valid]
        exact ih behind
      · exact ih behind

theorem place_of_commentOf? {l : Lexeme × Span} {c : Comment} (h : commentOf? l = some c) :
    c.span = l.2 ∧ c.text ∈ l.1.text? := by
  unfold commentOf? at h
  split at h
  · obtain rfl := Option.some.inj h
    exact ⟨rfl, rfl⟩
  · obtain rfl := Option.some.inj h
    exact ⟨rfl, rfl⟩
  · simp at h

variable (src : String)

theorem tokens_ascending :
    (ofSource src).tokens.Pairwise fun t t' => t.span.start ≤ t'.span.start :=
  tokensOf_ascending (Lexeme.all_ascending _) fun l mem =>
    Nat.le_of_lt (Lexeme.all_within src l mem).1

theorem comments_ascending :
    (ofSource src).comments.Pairwise fun c c' => c.span.start < c'.span.start := by
  refine (Lexeme.all_ascending src.toList).filterMap _ ?_
  intro l l' before c isComment c' isComment'
  rw [(place_of_commentOf? isComment).1, (place_of_commentOf? isComment').1]
  exact before

theorem faults_eq_nil_iff :
    (ofSource src).faults = [] ↔ ∀ t ∈ (ofSource src).tokens, t.kind ≠ .invalid :=
  faultsOf_eq_nil_iff (Lexeme.all_valid src.toList)

theorem tokens_hold : ∀ t ∈ (ofSource src).tokens, t.kind.isSolid → t.kind ≠ .invalid →
    t.span.Holds (LineTable.ofSource src) t.kind.spelling := by
  intro t mem solid valid
  have found := mem_lexemes_of_mem_tokensOf t mem solid valid
  exact (Lexeme.all_stands _ _ found).holds rfl

theorem comments_hold : ∀ c ∈ (ofSource src).comments,
    c.span.Holds (LineTable.ofSource src) c.text := by
  intro c mem
  obtain ⟨l, found, isComment⟩ := List.mem_filterMap.mp mem
  obtain ⟨place, spelled⟩ := place_of_commentOf? isComment
  rw [place]
  exact (Lexeme.all_stands _ _ found).holds spelled

end Scan

end GoLayout
