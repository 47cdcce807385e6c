import GoLayout.Proofs.Token.Cover
import GoLayout.Proofs.Words.File

/-!
Where imports stand in a source. The keyword of an import declaration comes before its imports, and
these come one behind the other; a later declaration stands behind an earlier one. Between the
starts of two of them there are at least two bytes, since the keyword has as many, and the path of
an import has its quotes.
-/

namespace GoLayout

/-! ### Strings in the source -/

theorem Number.kind_ne_string (cs : List Char) : Number.kind cs ≠ .string := by
  unfold Number.kind
  extract_lets hex isFloatMark
  split
  · nofun
  · split
    · nofun
    · nofun

namespace Lexeme

theorem quotedBody?_ne_nil {quote : Char} {cs taken rest : List Char}
    (h : quotedBody? quote cs = some (taken, rest)) : taken ≠ [] := by
  rintro rfl
  unfold quotedBody? at h
  split at h
  · split at h
    · nomatch h
    · obtain ⟨_, -, parts⟩ := Option.map_eq_some_iff.mp h
      simp at parts
  · split at h
    · simp at h
    · split at h
      · nomatch h
      · obtain ⟨_, -, parts⟩ := Option.map_eq_some_iff.mp h
        simp at parts
  · nomatch h

theorem rawBody?_ne_nil {cs taken rest : List Char} (h : rawBody? cs = some (taken, rest)) :
    taken ≠ [] := by
  rintro rfl
  unfold rawBody? at h
  split at h
  · simp at h
  · nomatch h

/-- A string has its quotes. -/
theorem string_of_quoted? {cs : List Char} :
    ∀ r ∈ quoted? cs, ∀ text, r.1 = .token (.literal .string text) → 2 ≤ text.toList.length := by
  rintro _ read text isString
  unfold quoted? at read
  split at read
  · rename_i quote cs
    obtain ⟨⟨kind, body, rest⟩, found, rfl⟩ := Option.map_eq_some_iff.mp read
    cases isString
    have closed : body ≠ [] := by
      unfold literalBody? at found
      split at found
      · obtain ⟨_, read, parts⟩ := Option.map_eq_some_iff.mp found
        cases parts
        exact quotedBody?_ne_nil read
      · obtain ⟨_, read, parts⟩ := Option.map_eq_some_iff.mp found
        cases parts
        exact rawBody?_ne_nil read
      · split at found
        · nomatch found
        · obtain ⟨_, -, parts⟩ := Option.map_eq_some_iff.mp found
          cases parts
      · nomatch found
    have some := List.length_pos_iff.mpr closed
    rw [String.toList_ofList, List.length_cons]
    omega
  · nomatch read

theorem comment?_ne_token {cs : List Char} : ∀ r ∈ comment? cs, ∀ kind, r.1 ≠ .token kind := by
  rintro r read kind isToken
  unfold comment? at read
  split at read
  · cases read
    nomatch isToken
  · split at read
    · cases read
      nomatch isToken
    · cases read
      nomatch isToken
  · nomatch read

theorem word?_ne_literal {cs : List Char} : ∀ r ∈ word? cs, ∀ kind text,
    r.1 ≠ .token (.literal kind text) := by
  rintro r read kind text isLiteral
  unfold word? at read
  split at read
  · split at read
    · cases read
      dsimp only at isLiteral
      split at isLiteral
      · nomatch isLiteral
      · nomatch isLiteral
    · nomatch read
  · nomatch read

theorem number?_ne_string {cs : List Char} : ∀ r ∈ number? cs, ∀ text,
    r.1 ≠ .token (.literal .string text) := by
  rintro r read text isString
  unfold number? at read
  split at read
  · cases read
    simp only [token.injEq, TokenKind.literal.injEq] at isString
    exact Number.kind_ne_string _ isString.1
  · nomatch read

theorem ReadBy.string {c : Char} {cs : List Char} {r : Reading} (h : ReadBy c cs r)
    {text : String} (isString : r.1 = .token (.literal .string text)) :
    2 ≤ text.toList.length := by
  cases h with
  | blank found => nomatch isString.symm.trans (blank?_eq r found)
  | newline found => nomatch isString.symm.trans (newline?_eq r found)
  | comment found => exact absurd isString (comment?_ne_token r found _)
  | word found => exact absurd isString (word?_ne_literal r found _ _)
  | number found => exact absurd isString (number?_ne_string r found _)
  | quoted found => exact string_of_quoted? r found text isString
  | mark found =>
    obtain ⟨_, -, read⟩ := List.exists_of_findSome?_eq_some found
    obtain ⟨_, -, rfl⟩ := Option.map_eq_some_iff.mp read
    nomatch isString
  | stray fault isStray => nomatch isString.symm.trans isStray

theorem readAll_string {pos fuel : Nat} {cs : List Char} :
    ∀ l ∈ readAll pos fuel cs, ∀ text, l.1 = .token (.literal .string text) →
      2 ≤ text.toList.length := by
  induction fuel generalizing pos cs with
  | zero => simp [readAll]
  | succ fuel ih =>
    cases cs with
    | nil => simp [readAll]
    | cons c cs =>
      refine List.forall_mem_cons.mpr ⟨?_, ih⟩
      intro text isString
      exact (read_by c cs).string isString

theorem all_string (cs : List Char) : ∀ l ∈ all cs, ∀ text,
    l.1 = .token (.literal .string text) → 2 ≤ text.toList.length := by
  unfold all
  split
  · split
    · exact List.forall_mem_cons.mpr ⟨nofun, readAll_string⟩
    · exact readAll_string
  · simp

theorem length_le_bytes (cs : List Char) : cs.length ≤ bytes cs := by
  induction cs with
  | nil => exact Nat.le_refl 0
  | cons c cs ih =>
    have size := c.utf8Size_pos
    simp only [List.length_cons, bytes]
    omega

end Lexeme

/-! ### Tokens as they are laid out -/

/-- Whether a token of the kind has at least two characters. -/
def TokenKind.isWide : TokenKind → Bool
  | .keyword _ | .literal .string _ => true
  | _ => false

theorem Keyword.two_le_length (k : Keyword) : 2 ≤ k.spelling.toList.length := by
  cases k <;> decide +kernel

namespace Token

/-- Tokens as a source has them, one behind the other. -/
structure Laid (ts : List Token) : Prop where
  apart : ts.Pairwise fun t t' => t.span.stop ≤ t'.span.start
  forward : ∀ t ∈ ts, t.span.start ≤ t.span.stop
  wide : ∀ t ∈ ts, t.kind.isWide → t.span.start + 2 ≤ t.span.stop

variable {ts more : List Token} {t : Token}

theorem Laid.of_append (h : Laid (ts ++ more)) : Laid ts :=
  ⟨(List.pairwise_append.mp h.apart).1, fun t mem => h.forward t (List.mem_append_left _ mem),
    fun t mem => h.wide t (List.mem_append_left _ mem)⟩

theorem Laid.stop_le (h : Laid (ts ++ [t])) : ∀ u ∈ ts, u.span.stop ≤ t.span.start :=
  fun u mem => (List.pairwise_append.mp h.apart).2.2 u mem t List.mem_cons_self

theorem Laid.concat (h : Laid ts) (behind : ∀ u ∈ ts, u.span.stop ≤ t.span.start)
    (forward : t.span.start ≤ t.span.stop) (narrow : t.kind.isWide = false) : Laid (ts ++ [t]) where
  apart := List.pairwise_append.mpr ⟨h.apart, List.pairwise_singleton _ _, by simpa using behind⟩
  forward := List.forall_mem_append.mpr ⟨h.forward, by simpa using forward⟩
  wide := List.forall_mem_append.mpr ⟨h.wide, by simp [narrow]⟩

end Token

theorem Scan.tokens_wide {src : String} : ∀ t ∈ (ofSource src).tokens, t.kind.isWide →
    t.span.start + 2 ≤ t.span.stop := by
  intro t mem wide
  have solid : t.kind.isSolid ∧ t.kind ≠ .invalid := by
    revert wide
    cases t.kind with
    | keyword _ | literal _ _ => exact fun _ => ⟨rfl, nofun⟩
    | name _ | mark _ | eof | invalid => exact nofun
  have found := mem_lexemes_of_mem_tokensOf t mem solid.1 solid.2
  obtain ⟨before, behind, -, place⟩ := (Lexeme.all_stands _ _ found).cuts rfl
  have long : 2 ≤ t.kind.spelling.toList.length := by
    revert wide found
    cases t.kind with
    | keyword k => exact fun _ _ => k.two_le_length
    | literal kind text =>
      cases kind with
      | string => exact fun _ found => Lexeme.all_string _ _ found text rfl
      | int | float | imag | rune => exact nofun
    | name _ | mark _ | eof | invalid => exact nofun
  have size := Lexeme.length_le_bytes t.kind.spelling.toList
  have place' : t.span = _ := place
  rw [place']
  dsimp only
  omega

/-- The tokens of a source, with the end of the source behind them. -/
theorem Scan.laid (src : String) :
    Token.Laid ((ofSource src).tokens ++ [⟨.eof, .point src.utf8ByteSize⟩]) := by
  exact Token.Laid.concat ⟨tokens_apart, tokens_forward, tokens_wide⟩
    (fun t mem => (tokens_solid t mem).1) (Nat.le_refl _) rfl

/-! ### Spans of imports -/

/-- Spans of at least two bytes, one behind the other. -/
structure Span.Row (spans : List Span) : Prop where
  wide : ∀ s ∈ spans, s.start + 2 ≤ s.stop
  apart : spans.Pairwise fun a b => a.stop ≤ b.start

theorem Span.Row.concat {spans : List Span} {s : Span} (h : Span.Row spans)
    (wide : s.start + 2 ≤ s.stop) (behind : ∀ a ∈ spans, a.stop ≤ s.start) :
    Span.Row (spans ++ [s]) where
  wide := List.forall_mem_append.mpr ⟨h.wide, by simpa using wide⟩
  apart := List.pairwise_append.mpr ⟨h.apart, List.pairwise_singleton _ _, by simpa using behind⟩

/-- The span of a spec. -/
def Spec.extent (s : Spec) : Span := ⟨s.pos, s.stop⟩

/-- The keyword and the imports of an import declaration. -/
def GenDecl.importSpans (d : GenDecl) : List Span :=
  if d.kind = .imports then d.kwPos :: d.specs.map Spec.extent else []

def Decl.importSpans : Decl → List Span
  | .gen d => d.importSpans
  | .func _ => []

/-- Where an import with a name starts. -/
def ImportName.start : ImportName → Nat
  | .dot span => span.start
  | .name id => id.span.start

namespace Grammar

variable {spans : List Span} {ts more : List Token} {t : Token} {K : TokenKind → Prop}

/-- The spans stand in a row up to these tokens. -/
def Marked (spans : List Span) (ts : List Token) : Prop :=
  Token.Laid ts → Span.Row spans ∧ ∀ s ∈ spans, ∃ t ∈ ts, s.stop ≤ t.span.stop

theorem marked_nil : Marked [] ts := fun _ => ⟨⟨by simp, .nil⟩, by simp⟩

theorem Marked.append (h : Marked spans ts) : Marked spans (ts ++ more) := by
  intro laid
  obtain ⟨row, before⟩ := h laid.of_append
  refine ⟨row, fun s mem => ?_⟩
  obtain ⟨t, found, le⟩ := before s mem
  exact ⟨t, List.mem_append_left _ found, le⟩

/-- Behind the spans comes another one that ends with the last token. -/
theorem Marked.concat {start : Nat} (h : Marked spans ts)
    (wide : Token.Laid (ts ++ [t]) → start + 2 ≤ t.span.stop)
    (behind : Token.Laid (ts ++ [t]) → ∀ s ∈ spans, s.stop ≤ start) :
    Marked (spans ++ [⟨start, t.span.stop⟩]) (ts ++ [t]) := by
  intro laid
  obtain ⟨row, before⟩ := h.append laid
  refine ⟨row.concat (wide laid) (behind laid), List.forall_mem_append.mpr ⟨before, ?_⟩⟩
  intro s mem
  rw [List.mem_singleton.mp mem]
  exact ⟨t, by simp, Nat.le_refl _⟩

theorem Marked.stop_le (h : Marked spans ts) (laid : Token.Laid (ts ++ [t])) :
    ∀ s ∈ spans, s.stop ≤ t.span.start := by
  intro s mem
  obtain ⟨u, found, le⟩ := (h laid.of_append).2 s mem
  exact Nat.le_trans le (laid.stop_le u found)

theorem Marked.concat_token (h : Marked spans ts) (wide : t.kind.isWide) :
    Marked (spans ++ [t.span]) (ts ++ [t]) :=
  h.concat (fun laid => laid.wide t (by simp) wide) h.stop_le

/-- A name of an import may have been read behind the spans. -/
def MarkedName (spans : List Span) (name : Option ImportName) (ts : List Token) : Prop :=
  Marked spans ts ∧ ∀ m ∈ name, Token.Laid ts →
    (∀ s ∈ spans, s.stop ≤ m.start) ∧ ∃ t ∈ ts, m.start ≤ t.span.stop

theorem Marked.name {name : ImportName} (h : Marked spans ts) (starts : name.start = t.span.start) :
    MarkedName spans (some name) (ts ++ [t]) := by
  refine ⟨h.append, ?_⟩
  rintro _ ⟨⟩ laid
  rw [starts]
  exact ⟨h.stop_le laid, t, by simp, laid.forward t (by simp)⟩

theorem MarkedName.path {name : Option ImportName} {doc comment : Link} {path : Literal}
    (h : MarkedName spans name ts) (isString : t.kind.isWide) (place : path.span = t.span) :
    Marked (spans ++ [(Spec.importSpec ⟨doc, name, path, comment⟩).extent]) (ts ++ [t]) := by
  obtain ⟨marked, named⟩ := h
  cases name with
  | none =>
    have same : (Spec.importSpec ⟨doc, none, path, comment⟩).extent = t.span := by
      simp only [Spec.extent, Spec.pos, Spec.stop, place]
    rw [same]
    exact marked.concat_token isString
  | some m =>
    have same : (Spec.importSpec ⟨doc, some m, path, comment⟩).extent = ⟨m.start, t.span.stop⟩ := by
      cases m <;> simp only [Spec.extent, Spec.pos, Spec.stop, ImportName.start, place]
    rw [same]
    refine marked.concat (fun laid => ?_) fun laid => (named m rfl laid.of_append).1
    obtain ⟨-, u, found, le⟩ := named m rfl laid.of_append
    have before := laid.stop_le u found
    have wide := laid.wide t (by simp) isString
    omega

/-! ### Reading imports -/

/-- A reader that passes tokens leaves the spans before them as they are. -/
theorem Takes.marked {α : Type} {r : Reader α} {J : α → List Token → Prop}
    (h : Takes (Drawn .outer .empty) K r J) : Takes (Marked spans) K r fun _ => Marked spans := by
  intro level c ended kind a c' level' run
  obtain ⟨ended', passed, parts, -⟩ := h level c ended kind a c' level' run
  exact ⟨ended', passed, parts, fun ts marked => marked.append⟩

/-- Items that are read one by one. -/
theorem Takes.collect {α : Type} {item : Reader (Option α)} {J : List α → List Token → Prop}
    (h : ∀ {K} as, Takes (J as) K item fun o => J (as ++ o.toList)) (rounds : Nat) (as : List α) :
    Takes (J as) K (Grammar.many item rounds) fun bs => J (as ++ bs) := by
  induction rounds generalizing K as with
  | zero => exact .cutOff
  | succ n ih =>
    refine .bind (h as) fun o => ?_
    cases o with
    | none => exact .pure fun _ holds => holds
    | some a =>
      refine .bind (ih (as ++ [a])) fun bs => .pure fun _ holds => ?_
      rwa [List.append_assoc] at holds

theorem Takes.collectUpTo {α : Type} {closer : Mark} {item : Reader α}
    {J : List α → List Token → Prop} (h : ∀ {K} as, Takes (J as) K item fun a => J (as ++ [a]))
    (rounds : Nat) (as : List α) :
    Takes (J as) K (Grammar.upTo closer item rounds) fun bs => J (as ++ bs) := by
  refine .collect (fun as => .atEnd_bind fun b => ?_) rounds as
  cases b with
  | true => exact .pure fun _ holds => by simpa using holds
  | false => exact .bind (h as) fun a => .pure fun _ holds => holds

theorem ident_marks : Takes (Marked spans) K ident fun name =>
    MarkedName spans (some (.name name)) := by
  refine .peek_bind fun k _ => ?_
  split
  · rename_i text _
    exact .bind (J := fun span => MarkedName spans (some (.name ⟨text, span⟩)))
      (.step (ne_eof_of_eq nofun) fun ts t marked _ => marked.name rfl)
      fun span => .pure fun ts named => named
  · exact .unexpected

theorem importSpec_marks {doc : Link} : Takes (Marked spans) K (importSpec doc) fun spec =>
    Marked (spans ++ [spec.extent]) := by
  refine .peek_bind fun k _ => ?_
  extract_lets finish
  have path_marks {name : Option ImportName} :
      Takes (MarkedName spans name) anyKind stringLiteral fun path =>
        Marked (spans ++ [(Spec.importSpec ⟨doc, name, path, none⟩).extent]) := by
    refine .peek_bind fun k _ => ?_
    split
    · refine .bind (.step (ne_eof_of_eq nofun) fun ts t marked isString => ?_)
        fun span => .pure fun ts holds => holds
      exact marked.path (by rw [isString]; rfl) rfl
    · exact .unexpected
  have finish_marks : ∀ name, Takes (MarkedName spans name) anyKind (finish name) fun spec =>
      Marked (spans ++ [spec.extent]) := fun name =>
    .bind path_marks fun path => .bind (Takes.marked .terminator) fun _ =>
      .trail_bind fun comment => .pure fun ts holds => holds
  split
  · refine .bind (J := fun span => MarkedName spans (some (.dot span)))
      (.step (ne_eof_of_eq nofun) fun ts t marked _ => marked.name rfl) fun span => ?_
    exact .bind (.pure fun ts named => named) finish_marks
  · refine .bind ident_marks fun name => ?_
    exact .bind (.pure fun ts named => named) finish_marks
  · exact .bind (.pure fun ts marked => ⟨marked, nofun⟩) finish_marks

theorem importSpecs_marks {rounds : Nat} :
    Takes (Marked spans) K (upTo .rparen (do importSpec (← lead)) rounds) fun specs =>
      Marked (spans ++ specs.map Spec.extent) := by
  have all : Takes (Marked (spans ++ ([] : List Spec).map Spec.extent)) K
      (upTo .rparen (do importSpec (← lead)) rounds) fun specs =>
        Marked (spans ++ ([] ++ specs).map Spec.extent) := by
    refine .collectUpTo (J := fun specs => Marked (spans ++ specs.map Spec.extent))
      (fun specs => .lead_bind fun _ => ?_) rounds []
    simpa only [List.map_append, List.map_cons, List.map_nil, ← List.append_assoc] using
      importSpec_marks
  simpa using all

section Rules

variable {g : Readers} (keeps : g.Keeps)

include keeps

/-- The spans of an import declaration are added, and those of no other one. -/
theorem genDecl_marks {kind : DeclKind} :
    Takes (Marked spans) (· = .keyword kind.keyword) (genDecl g kind) fun d =>
      Marked (spans ++ d.importSpans) := by
  have others (no : kind ≠ .imports) {lparen rparen : Option Span} {doc : Link} {kwPos : Span}
      {specs : List Spec} : ∀ ts, Marked spans ts → Marked (spans ++
        (GenDecl.mk doc kwPos kind lparen specs rparen).importSpans) ts := by
    intro ts marked
    rw [GenDecl.importSpans, if_neg no, List.append_nil]
    exact marked
  refine .lead_bind fun doc => ?_
  by_cases imports : kind = .imports
  · subst imports
    refine .bind (J := fun kwPos => Marked (spans ++ [kwPos]))
      (.step (ne_eof_of_eq nofun) fun ts t marked isKeyword => ?_) fun kwPos => ?_
    · exact marked.concat_token (by rw [isKeyword]; rfl)
    refine .bind (Takes.marked .acceptMark) fun o => ?_
    cases o with
    | none =>
      refine .bind importSpec_marks fun spec => .pure fun ts marked => ?_
      simpa [GenDecl.importSpans] using marked
    | some lparen =>
      refine .bind importSpecs_marks fun specs => ?_
      refine .bind (Takes.marked .expectMark) fun rparen => ?_
      refine .bind (Takes.marked .terminator) fun _ => .pure fun ts marked => ?_
      simpa [GenDecl.importSpans] using marked
  · refine .bind (Takes.marked (.stepAt rfl)) fun kwPos => ?_
    refine .bind (Takes.marked .acceptMark) fun o => ?_
    cases o with
    | none =>
      exact .bind (Takes.marked (spec_takes keeps)) fun spec => .pure (others imports)
    | some lparen =>
      refine .bind (Takes.marked (.upTo (.lead_bind fun _ => spec_takes keeps) _)) fun specs => ?_
      refine .bind (Takes.marked .expectMark) fun rparen => ?_
      exact .bind (Takes.marked .terminator) fun _ => .pure (others imports)

theorem decl?_marks : Takes (Marked spans) K (decl? g) fun o =>
    Marked (spans ++ o.toList.flatMap Decl.importSpans) := by
  have group (kind : DeclKind) : Takes (Marked spans) (· = .keyword kind.keyword)
      (do return some (Decl.gen (← genDecl g kind))) fun o =>
        Marked (spans ++ o.toList.flatMap Decl.importSpans) :=
    .bind (genDecl_marks keeps) fun d => .pure fun ts marked => by
      simpa [Decl.importSpans] using marked
  refine .bind (Takes.marked (.skipSemis _)) fun _ => .peek_bind fun k _ => ?_
  split
  · exact .pure fun ts marked => by simpa using marked
  · exact group .imports
  · exact group .consts
  · exact group .vars
  · exact group .types
  · exact .bind (Takes.marked (funcDecl_takes keeps)) fun f => .pure fun ts marked => by
      simpa [Decl.importSpans] using marked
  · exact .unexpected

theorem file_marks {comments : List CommentGroup} {lines : LineTable} :
    Takes (Marked []) K (file g comments lines) fun f =>
      Marked (f.decls.flatMap Decl.importSpans) := by
  refine .lead_bind fun doc => .bind (Takes.marked .expectKeyword) fun packagePos => ?_
  refine .bind (Takes.marked .ident) fun name => .bind (Takes.marked .terminator) fun _ => ?_
  refine .bind (.collect (J := fun ds => Marked (ds.flatMap Decl.importSpans)) (fun ds => ?_) _ [])
    fun decls => .pure fun ts marked => marked
  simpa [List.flatMap_append] using decl?_marks keeps

end Rules

end Grammar

/-- The keywords and the imports of import declarations stand in a row in the source. -/
theorem SourceFile.row_of_parse {src : String} {f : SourceFile}
    (h : SourceFile.parse src = .ok f) : Span.Row (f.decls.flatMap Decl.importSpans) := by
  obtain ⟨input, read, run⟩ := exists_of_bind_eq_ok h
  have tokens := Grammar.Input.ofSource_tokens read
  have ended : input.cursor.Ended :=
    ⟨(Scan.ofSource src).tokens, _, tokens, rfl, Scan.tokens_ne_eof src⟩
  obtain ⟨c', level', fileRead⟩ := Grammar.Input.of_run_eq_ok run
  obtain ⟨-, passed, parts, marked⟩ := Grammar.file_marks (Grammar.readWithin_keeps _) 0
    input.cursor ended (K := Grammar.anyKind) trivial f c' level' fileRead
  have laid := Scan.laid src
  rw [← tokens, parts] at laid
  exact (marked [] Grammar.marked_nil laid.of_append).1

end GoLayout
