import GoLayout.Proofs.Grammar.Cursor
import GoLayout.Proofs.Tree.Words
import GoLayout.Proofs.Words.Room

/-!
The words that a reader takes from the tokens it passes. `Takes I K r J` says: behind tokens as `I`
says, on a token of a kind as `K` says, whatever `r` reads is as `J` says of all the tokens passed
by then. With one lemma for each reader and each way of joining readers, the words of a tree are
followed token by token. They are a part of the words of the tokens, in their order, and they are
all of them where the source has no more than the tree has room for. Outside of functions that is so
as long as no literal has a type in brackets.
-/

namespace GoLayout

namespace Token

/-- The identifier or literal that a token is. -/
def word? (t : Token) : Option Word :=
  match t.kind with
  | .name text | .literal _ text => some ⟨text, t.span⟩
  | _ => none

def words (ts : List Token) : List Word := ts.filterMap word?

/-- Tokens without functions, and so without statements, and without literals whose type ends with
a bracket or a parenthesis. -/
structure Plain (ts : List Token) : Prop where
  noFunc : ∀ t ∈ ts, t.kind ≠ .keyword .kwFunc
  noBrace : ts.IsChain fun a b =>
    b.kind = .mark .lbrace → a.kind ≠ .mark .rbrack ∧ a.kind ≠ .mark .rparen

theorem Plain.of_append {ts ts' : List Token} (h : Plain (ts ++ ts')) : Plain ts :=
  ⟨fun t mem => h.noFunc t (List.mem_append_left _ mem), h.noBrace.left_of_append⟩

theorem words_concat (ts : List Token) (t : Token) :
    words (ts ++ [t]) = words ts ++ t.word?.toList := by
  cases found : t.word? <;> simp [words, List.filterMap_append, found]

end Token

namespace Grammar

open Token (words Plain)

/-! ### Words drawn from tokens -/

/-- Where words are drawn: in the body of a function, where some may be left out, or outside. -/
inductive Scope where
  | outer | body

/-- What a reader has stored by now: the words, and where there was room for them. -/
structure Account where
  rooms : List Room
  words : List Word

namespace Account

def empty : Account := ⟨[], []⟩

/-- The account with further nodes of a tree and their words. -/
def add (acc : Account) (ns : List Node) (ws : List Word) : Account :=
  ⟨acc.rooms ++ GoLayout.rooms ns, acc.words ++ ws⟩

@[simp] theorem add_eq (acc : Account) (ns : List Node) (ws : List Word) :
    acc.add ns ws = ⟨acc.rooms ++ GoLayout.rooms ns, acc.words ++ ws⟩ := rfl

/-- What the second account leaves out of the first one did not fit. -/
structure Trims (ts : List Token) (acc acc' : Account) : Prop where
  sublist : acc'.words.Sublist acc.words
  held : (∀ r ∈ acc.rooms, r.Held ts) → ∀ r ∈ acc'.rooms, r.Held ts
  whole : (∀ r ∈ acc.rooms, r.Held ts) → (∀ r ∈ acc'.rooms, r.Fits ts) →
    acc'.words = acc.words ∧ ∀ r ∈ acc.rooms, r.Fits ts

namespace Trims

variable {ts : List Token} {acc acc' : Account} {ns ns' : List Node} {ws ws' : List Word}

theorem refl : acc.Trims ts acc :=
  ⟨List.Sublist.refl _, fun held => held, fun _ fit => ⟨rfl, fit⟩⟩

theorem add (trimmed : acc.Trims ts acc') (more : (empty.add ns ws).Trims ts (empty.add ns' ws')) :
    (acc.add ns ws).Trims ts (acc'.add ns' ws') where
  sublist := trimmed.sublist.append more.sublist
  held := by
    simp only [add_eq, List.forall_mem_append]
    exact fun held => ⟨trimmed.held held.1, more.held held.2⟩
  whole := by
    simp only [add_eq, List.forall_mem_append]
    intro held fit
    obtain ⟨same, fitted⟩ := trimmed.whole held.1 fit.1
    obtain ⟨same', fitted'⟩ := more.whole held.2 fit.2
    exact ⟨congrArg₂ (· ++ ·) same same', fitted, fitted'⟩

theorem held_of_others {room : Room} (held : room.Held ts)
    (others : ∀ r ∈ acc'.rooms, r = room ∨ r ∈ acc.rooms) (all : ∀ r ∈ acc.rooms, r.Held ts) :
    ∀ r ∈ acc'.rooms, r.Held ts := by
  intro r mem
  rcases others r mem with rfl | old
  · exact held
  · exact all r old

/-- With one more place that has room for something, nothing is left out. -/
theorem roomier (room : Room) (held : room.Held ts) (same : acc'.words = acc.words)
    (more : ∀ r, r ∈ acc'.rooms ↔ r = room ∨ r ∈ acc.rooms) : acc.Trims ts acc' where
  sublist := by rw [same]
  held := held_of_others held fun r => (more r).mp
  whole := fun _ fit => ⟨same, fun r mem => fit r ((more r).mpr (.inr mem))⟩

/-- Where something does not fit, words may be left out. -/
theorem misfit (room : Room) (held : room.Held ts) (misfit : ¬ room.Fits ts)
    (fewer : acc'.words.Sublist acc.words) (present : room ∈ acc'.rooms)
    (others : ∀ r ∈ acc'.rooms, r = room ∨ r ∈ acc.rooms) : acc.Trims ts acc' where
  sublist := fewer
  held := held_of_others held others
  whole := fun _ fit => absurd (fit room present) misfit

end Trims

end Account

/-- The words are drawn from the tokens in their order, and all of them are where everything has
room. In a body the tokens are not plain. -/
structure Drawn (s : Scope) (acc : Account) (ts : List Token) : Prop where
  sublist : acc.words.Sublist (words ts)
  whole : (∀ r ∈ acc.rooms, r.Fits ts) → acc.words = words ts
  held : ∀ r ∈ acc.rooms, r.Held ts
  plain : Plain ts → s = .outer ∧ acc.words = words ts

namespace Drawn

variable {s : Scope} {acc acc' : Account} {ts : List Token} {t : Token}

theorem empty : Drawn .outer .empty [] where
  sublist := List.Sublist.refl _
  whole := fun _ => rfl
  held := by simp [Account.empty]
  plain := fun _ => ⟨rfl, rfl⟩

/-- A token adds its word, if it is one. -/
theorem concat (h : Drawn s acc ts) (t : Token) :
    Drawn s (acc.add [] t.word?.toList) (ts ++ [t]) where
  sublist := by
    rw [Token.words_concat]
    exact h.sublist.append (List.Sublist.refl _)
  whole := fun fit => by
    rw [Token.words_concat, ← h.whole fun r mem => (fit r (by simpa using mem)).of_append]
    rfl
  held := fun r mem => (h.held r (by simpa using mem)).append
  plain := fun plain => by
    obtain ⟨outer, all⟩ := h.plain plain.of_append
    rw [Token.words_concat, ← all]
    exact ⟨outer, rfl⟩

theorem concat_silent (h : Drawn s acc ts) (silent : t.word? = none) :
    Drawn s acc (ts ++ [t]) := by
  simpa [silent] using h.concat t

theorem concat_func (h : Drawn s acc ts) (func : t.kind = .keyword .kwFunc) :
    Drawn .body acc (ts ++ [t]) := by
  have silent : t.word? = none := by rw [Token.word?, func]
  have more := h.concat_silent silent
  refine ⟨more.sublist, more.whole, more.held, fun plain => ?_⟩
  exact absurd func (plain.noFunc t (List.mem_append_right _ List.mem_cons_self))

theorem not_plain (h : Drawn .body acc ts) : ¬ Plain ts := fun plain =>
  nomatch (h.plain plain).1

/-- What is drawn in a body is drawn in all. -/
theorem leave (h : Drawn .body acc ts) : Drawn s acc ts :=
  ⟨h.sublist, h.whole, h.held, fun plain => absurd plain h.not_plain⟩

/-- What is drawn stays drawn when only what does not fit is left out. -/
theorem trim (h : Drawn s acc ts) (trimmed : acc.Trims ts acc')
    (plain : Plain ts → acc'.words = acc.words) : Drawn s acc' ts where
  sublist := trimmed.sublist.trans h.sublist
  whole := fun fit =>
    have ⟨same, fitted⟩ := trimmed.whole h.held fit
    same.trans (h.whole fitted)
  held := trimmed.held h.held
  plain := fun isPlain =>
    have ⟨outer, all⟩ := h.plain isPlain
    ⟨outer, (plain isPlain).trans all⟩

theorem trimBody (h : Drawn .body acc ts) (trimmed : acc.Trims ts acc') : Drawn .body acc' ts :=
  h.trim trimmed fun plain => absurd plain h.not_plain

end Drawn

/-- The words are drawn from the tokens when an opening brace follows. -/
def DrawnAtBrace (s : Scope) (acc : Account) (ts : List Token) : Prop :=
  ∀ t : Token, t.kind = .mark .lbrace → Drawn s acc (ts ++ [t])

theorem Drawn.atBrace {s : Scope} {acc : Account} {ts : List Token} (h : Drawn s acc ts) :
    DrawnAtBrace s acc ts :=
  fun t brace => h.concat_silent (by rw [Token.word?, brace])

/-! ### Readers that pass tokens -/

/-- The tokens from the cursor on. -/
def Cursor.tokens (c : Cursor) : List Token := (c.current :: c.rest).map (·.toToken)

/-- The last token, and no other one, is the end of the source. -/
def Cursor.Ended (c : Cursor) : Prop :=
  ∃ front last, c.tokens = front ++ [last] ∧ last.kind = .eof ∧ ∀ t ∈ front, t.kind ≠ .eof

theorem Cursor.Ended.left {c : Cursor} (h : c.Ended) :
    ∃ last ∈ (c.current :: c.rest).getLast?, last.kind = .eof := by
  obtain ⟨front, last, parts, isEnd, -⟩ := h
  have final : c.tokens.getLast? = some last := by simp [parts]
  rw [tokens, List.getLast?_map, Option.map_eq_some_iff] at final
  obtain ⟨t, isLast, rfl⟩ := final
  exact ⟨t, isLast, isEnd⟩

/-- At the end of the source no words are left. -/
theorem Cursor.Ended.tokens_eq {c : Cursor} (h : c.Ended) (atEnd : c.current.kind = .eof) :
    ∃ last, c.tokens = [last] := by
  obtain ⟨front, last, parts, -, others⟩ := h
  cases front with
  | nil => exact ⟨last, parts⟩
  | cons t front =>
    have first : c.current.toToken = t := (List.cons.inj parts).1
    exact absurd (first ▸ atEnd) (others t List.mem_cons_self)

theorem Cursor.Ended.next {current t : Attached} {rest : List Attached}
    (h : Cursor.Ended ⟨current, t :: rest⟩) : Cursor.Ended ⟨t, rest⟩ := by
  obtain ⟨front, last, parts, isEnd, others⟩ := h
  cases front with
  | nil => nomatch (List.cons.inj parts).2
  | cons u front =>
    refine ⟨front, last, (List.cons.inj parts).2, isEnd, fun t mem => ?_⟩
    exact others t (List.mem_cons_of_mem u mem)

variable {α β : Type} {I : List Token → Prop} {K L : TokenKind → Prop}
  {J : α → List Token → Prop} {M : β → List Token → Prop}

def Takes (I : List Token → Prop) (K : TokenKind → Prop) (r : Reader α)
    (J : α → List Token → Prop) : Prop :=
  ∀ level c, c.Ended → K c.current.kind → ∀ a c' level', r c level = .ok ((a, c'), level') →
    c'.Ended ∧ ∃ passed, c.tokens = passed ++ c'.tokens ∧ ∀ ts, I ts → J a (ts ++ passed)

/-- Whether tokens of a kind are no words, and not the end of the source. -/
def isSilent : TokenKind → Bool
  | .keyword _ | .mark _ => true
  | _ => false

theorem isSilent_of_eq {k : TokenKind} (silent : isSilent k) : ∀ k', k' = k → isSilent k' :=
  fun _ same => same ▸ silent

namespace Takes

theorem pure {a : α} (h : ∀ ts, I ts → J a ts) : Takes I K (pure a) J := by
  rintro level c ended - _ _ _ ⟨⟩
  exact ⟨ended, [], rfl, fun ts holds => by rw [List.append_nil]; exact h ts holds⟩

theorem idle {a : α} : Takes I K (Pure.pure a) fun _ => I := pure fun _ holds => holds

/-- Behind the first reader, the kind under the cursor is not known any more. -/
theorem bind {r : Reader α} {f : α → Reader β} (first : Takes I K r J)
    (next : ∀ a, Takes (J a) anyKind (f a) M) : Takes I K (r >>= f) M := by
  intro level c ended kind b c' level' run
  change (Except.bind (r c level) fun x => f x.1.1 x.1.2 x.2) = .ok ((b, c'), level') at run
  cases read : r c level with
  | error _ =>
    rw [read] at run
    nomatch run
  | ok x =>
    obtain ⟨⟨a, c''⟩, level''⟩ := x
    rw [read] at run
    obtain ⟨ended', passed, parts, holds⟩ := first level c ended kind a c'' level'' read
    obtain ⟨ended'', passed', parts', holds'⟩ := next a level'' c'' ended' trivial b c' level' run
    refine ⟨ended'', passed ++ passed', ?_, fun ts start => ?_⟩
    · rw [parts, parts', List.append_assoc]
    · rw [← List.append_assoc]
      exact holds' _ (holds ts start)

theorem map {r : Reader α} {f : α → β} (h : Takes I K r fun a => M (f a)) :
    Takes I K (f <$> r) M := by
  intro level c ended kind b c' level' run
  change (Except.bind (r c level) fun x => .ok ((f x.1.1, x.1.2), x.2)) =
    .ok ((b, c'), level') at run
  cases read : r c level with
  | error _ =>
    rw [read] at run
    nomatch run
  | ok x =>
    rw [read] at run
    have taken := h level c ended kind x.1.1 x.1.2 x.2 read
    cases run
    exact taken

theorem mono {r : Reader α} {J' : α → List Token → Prop} (h : Takes I K r J)
    (weaker : ∀ a ts, J a ts → J' a ts) : Takes I K r J' := by
  intro level c ended kind a c' level' run
  obtain ⟨ended', passed, parts, holds⟩ := h level c ended kind a c' level' run
  exact ⟨ended', passed, parts, fun ts start => weaker a _ (holds ts start)⟩

theorem behind {r : Reader α} {I' : List Token → Prop} (h : Takes I' K r J)
    (stronger : ∀ ts, I ts → I' ts) : Takes I K r J := by
  intro level c ended kind a c' level' run
  obtain ⟨ended', passed, parts, holds⟩ := h level c ended kind a c' level' run
  exact ⟨ended', passed, parts, fun ts start => holds ts (stronger ts start)⟩

/-- What is known of the tokens passed before, and stays so. -/
theorem keep {r : Reader α} {P : List Token → Prop} (h : Takes I K r J)
    (stays : ∀ ts ts', P ts → P (ts ++ ts')) :
    Takes (fun ts => I ts ∧ P ts) K r fun a ts => J a ts ∧ P ts := by
  intro level c ended kind a c' level' run
  obtain ⟨ended', passed, parts, holds⟩ := h level c ended kind a c' level' run
  exact ⟨ended', passed, parts, fun ts start => ⟨holds ts start.1, stays ts passed start.2⟩⟩

theorem ofAny {r : Reader α} (h : Takes I anyKind r J) : Takes I K r J :=
  fun level c ended _ => h level c ended trivial

theorem enclosed {r : Reader α} {e : Enclosure} (h : Takes I K r J) :
    Takes I K (enclosed e r) J := by
  intro level c ended kind a c' level' run
  obtain ⟨inner, read, -⟩ := exists_of_enclosed run
  exact h _ c ended kind a c' inner read

/-! ### Looking -/

theorem peek_bind {f : TokenKind → Reader β} (h : ∀ k, K k → Takes I (· = k) (f k) M) :
    Takes I K (peek >>= f) M := fun level c ended kind => h c.current.kind kind level c ended rfl

theorem peekNext_bind {f : TokenKind → Reader β} (h : ∀ k, Takes I K (f k) M) :
    Takes I K (peekNext >>= f) M := fun level c ended kind => h _ level c ended kind

theorem here_bind {f : Span → Reader β} (h : ∀ s, Takes I K (f s) M) :
    Takes I K (here >>= f) M := fun level c ended kind => h _ level c ended kind

theorem lead_bind {f : Link → Reader β} (h : ∀ l, Takes I K (f l) M) :
    Takes I K (lead >>= f) M := fun level c ended kind => h _ level c ended kind

theorem trail_bind {f : Link → Reader β} (h : ∀ l, Takes I K (f l) M) :
    Takes I K (trail >>= f) M := fun level c ended kind => h _ level c ended kind

theorem get_bind {f : Cursor → Reader β} (h : ∀ c, Takes I K (f c) M) :
    Takes I K (get >>= f) M := fun level c ended kind => h c level c ended kind

theorem level_bind {f : Level → Reader β} (h : ∀ level, Takes I K (f level) M) :
    Takes I K (Grammar.level >>= f) M := fun level c ended kind => h level level c ended kind

theorem looksAt_bind {wanted : TokenKind} {f : Bool → Reader β}
    (h : ∀ b, Takes I (fun k => K k ∧ b = (k == wanted)) (f b) M) :
    Takes I K (looksAt wanted >>= f) M := fun level c ended kind => h _ level c ended ⟨kind, rfl⟩

theorem atEnd_bind {closer : Mark} {f : Bool → Reader β} (h : ∀ b, Takes I K (f b) M) :
    Takes I K (atEnd closer >>= f) M := fun level c ended kind => h _ level c ended kind

/-! ### Failing -/

theorem failAt {span : Span} {fault : SyntaxFault} : Takes I K (failAt span fault : Reader α) J :=
  fun _ _ _ _ _ _ _ run => nomatch run

theorem unexpected {wanted : Expected} : Takes I K (unexpected wanted : Reader α) J :=
  fun _ _ _ _ _ _ _ run => nomatch run

theorem cutOff : Takes I K (cutOff : Reader α) J := fun _ _ _ _ _ _ _ run => nomatch run

/-! ### Moving -/

/-- Stepping over a token that is not the last one passes it. -/
theorem step {J : Span → List Token → Prop} (noEnd : ∀ k, K k → k ≠ .eof)
    (h : ∀ ts t, I ts → K t.kind → J t.span (ts ++ [t])) : Takes I K step J := by
  rintro level ⟨current, rest⟩ ended kind _ _ _ ⟨⟩
  cases rest with
  | nil =>
    obtain ⟨front, last, parts, isEnd, -⟩ := ended
    obtain ⟨-, only⟩ := List.append_eq_singleton_iff.mp parts.symm |>.resolve_right nofun
    cases only
    exact absurd isEnd (noEnd _ kind)
  | cons t ts =>
    exact ⟨ended.next, [current.toToken], rfl, fun ts start => h ts current.toToken start kind⟩

variable {s : Scope} {acc : Account}

theorem stepSilent (silent : ∀ k, K k → isSilent k) :
    Takes (Drawn s acc) K Grammar.step fun _ => Drawn s acc := by
  refine step ?_ ?_
  · rintro k kind rfl
    nomatch silent _ kind
  · intro ts t drawn kind
    refine drawn.concat_silent ?_
    have silent' := silent _ kind
    unfold Token.word?
    split <;> simp_all [isSilent]

theorem stepAt {k : TokenKind} (silent : isSilent k) :
    Takes (Drawn s acc) (· = k) Grammar.step fun _ => Drawn s acc :=
  stepSilent (isSilent_of_eq silent)

theorem accept {wanted : TokenKind} (silent : isSilent wanted) :
    Takes (Drawn s acc) K (accept wanted) fun _ => Drawn s acc := by
  refine looksAt_bind fun b => ?_
  cases b with
  | true =>
    refine bind (stepSilent ?_) fun _ => idle
    rintro k ⟨-, same⟩
    rw [eq_of_beq same.symm]
    exact silent
  | false => exact idle

/-- What holds behind a token that may be there. -/
theorem acceptThat {wanted : TokenKind} {J : Option Span → List Token → Prop}
    (noEnd : wanted ≠ .eof) (absent : ∀ ts, I ts → J none ts)
    (present : ∀ ts t, I ts → t.kind = wanted → J (some t.span) (ts ++ [t])) :
    Takes I K (Grammar.accept wanted) J := by
  refine looksAt_bind fun b => ?_
  cases b with
  | true =>
    refine bind (J := fun span => J (some span)) (step ?_ ?_) fun span => pure fun _ holds => holds
    · rintro k ⟨-, same⟩ rfl
      exact noEnd (eq_of_beq same.symm).symm
    · exact fun ts t start kind => present ts t start (eq_of_beq kind.2.symm)
  | false => exact pure absent

theorem expect {wanted : TokenKind} {expected : Expected} (silent : isSilent wanted) :
    Takes (Drawn s acc) K (expect wanted expected) fun _ => Drawn s acc := by
  refine looksAt_bind fun b => ?_
  cases b with
  | true =>
    refine stepSilent ?_
    rintro k ⟨-, same⟩
    rw [eq_of_beq same.symm]
    exact silent
  | false => exact unexpected

theorem acceptMark {m : Mark} : Takes (Drawn s acc) K (acceptMark m) fun _ => Drawn s acc :=
  accept rfl

theorem expectMark {m : Mark} : Takes (Drawn s acc) K (expectMark m) fun _ => Drawn s acc :=
  expect rfl

/-- What holds behind the token that is expected. -/
theorem expectThat {m : Mark} {J : Span → List Token → Prop}
    (h : ∀ ts t, I ts → t.kind = .mark m → J t.span (ts ++ [t])) :
    Takes I K (Grammar.expectMark m) J := by
  refine looksAt_bind fun b => ?_
  cases b with
  | true =>
    refine step ?_ fun ts t start kind => h ts t start (eq_of_beq kind.2.symm)
    rintro k ⟨-, same⟩ rfl
    nomatch same
  | false => exact unexpected

/-- The token that is expected is the last one passed. -/
theorem expectLast {m : Mark} : Takes (Drawn s acc) K (Grammar.expectMark m) fun _ ts =>
    Drawn s acc ts ∧ ∃ t ∈ ts.getLast?, t.kind = .mark m :=
  expectThat fun _ t drawn isMark =>
    ⟨drawn.concat_silent (by rw [Token.word?, isMark]), t, by simp, isMark⟩

theorem expectKeyword {k : Keyword} :
    Takes (Drawn s acc) K (expectKeyword k) fun _ => Drawn s acc := expect rfl

/-- Behind `func` words are drawn as in a body. -/
theorem expectFunc : Takes (Drawn s acc) K (Grammar.expectKeyword .kwFunc) fun _ =>
    Drawn .body acc := by
  refine looksAt_bind fun b => ?_
  cases b with
  | true =>
    refine step ?_ fun ts t drawn kind => drawn.concat_func (eq_of_beq kind.2.symm)
    rintro k ⟨-, same⟩ rfl
    nomatch same
  | false => exact unexpected

theorem stepFunc : Takes (Drawn s acc) (· = .keyword .kwFunc) Grammar.step fun _ =>
    Drawn .body acc := by
  refine step ?_ fun ts t drawn kind => drawn.concat_func kind
  rintro k rfl
  exact nofun

theorem expectBrace :
    Takes (DrawnAtBrace s acc) K (Grammar.expectMark .lbrace) fun _ => Drawn s acc :=
  expectThat fun _ t drawn brace => drawn t brace

theorem terminator : Takes (Drawn s acc) K terminator fun _ => Drawn s acc := by
  refine peek_bind fun k _ => ?_
  split
  · exact idle
  · exact idle
  · exact idle
  · exact bind (stepAt rfl) fun _ => idle
  · exact unexpected

/-- A comma behind a token that stops here: what ends with the token is not the only one. -/
theorem acceptComma (stop : Nat) :
    Takes (fun ts => Drawn s acc ts ∧ ∃ t ∈ ts.getLast?, t.span.stop = stop) K
      (Grammar.acceptMark .comma) fun o ts =>
        Drawn s acc ts ∧ (o.isSome → ¬ (Room.one stop).Fits ts) := by
  refine acceptThat nofun (fun ts h => ⟨h.1, nofun⟩) ?_
  rintro ts t ⟨drawn, last, isLast, stops⟩ comma
  refine ⟨drawn.concat_silent (by rw [Token.word?, comma]), fun _ fits => ?_⟩
  exact fits.between isLast stops comma

/-! ### Words -/

theorem stepWord {k : TokenKind} {word : Span → Word}
    (isWord : ∀ t : Token, t.kind = k → t.word? = some (word t.span)) :
    Takes (Drawn s acc) (· = k) Grammar.step fun span => Drawn s (acc.add [] [word span]) := by
  refine step ?_ fun ts t drawn kind => ?_
  · rintro _ rfl rfl
    nomatch isWord ⟨.eof, ⟨0, 0⟩⟩ rfl
  · have more := drawn.concat t
    rw [isWord t kind] at more
    exact more

theorem stepName {text : String} : Takes (Drawn s acc) (· = .name text) Grammar.step fun span =>
    Drawn s (acc.add [] [⟨text, span⟩]) :=
  stepWord fun t kind => by rw [Token.word?, kind]

theorem stepLiteral {kind : LiteralKind} {text : String} :
    Takes (Drawn s acc) (· = .literal kind text) Grammar.step fun span =>
      Drawn s (acc.add [] [⟨text, span⟩]) :=
  stepWord fun t kind => by rw [Token.word?, kind]

theorem ident : Takes (Drawn s acc) K ident fun i => Drawn s (acc.add [] [i.word]) := by
  refine peek_bind fun k _ => ?_
  split
  · exact bind stepName fun _ => pure fun _ drawn => drawn
  · exact unexpected

theorem literal? : Takes (Drawn s acc) K literal? fun o =>
    Drawn s (acc.add [] (o.toList.map Literal.word)) := by
  refine peek_bind fun k _ => ?_
  split
  · exact bind stepLiteral fun _ => pure fun _ drawn => drawn
  · refine pure fun _ drawn => ?_
    simpa using drawn

theorem stringLiteral : Takes (Drawn s acc) K stringLiteral fun l =>
    Drawn s (acc.add [] [l.word]) := by
  refine peek_bind fun k _ => ?_
  split
  · exact bind stepLiteral fun _ => pure fun _ drawn => drawn
  · exact unexpected

/-- What is returned is what was drawn so far. -/
theorem done {a : α} {A : α → Account} (h : A a = acc) :
    Takes (Drawn s acc) K (Pure.pure a) fun a => Drawn s (A a) :=
  pure fun _ drawn => h ▸ drawn

/-- What is returned has one more place with room for something. -/
theorem roomier {a : α} {A : α → Account} (room : Room) (held : ∀ ts, room.Held ts)
    (same : (A a).words = acc.words) (more : ∀ r, r ∈ (A a).rooms ↔ r = room ∨ r ∈ acc.rooms) :
    Takes (Drawn s acc) K (Pure.pure a) fun a => Drawn s (A a) :=
  pure fun ts drawn => drawn.trim (.roomier room (held ts) same more) fun _ => same

theorem cast {r : Reader α} {acc' : Account} (h : acc = acc')
    (taken : Takes (Drawn s acc') K r J) : Takes (Drawn s acc) K r J := h ▸ taken

/-! ### Repetition

Each repetition is followed by induction on its rounds. -/

variable {N : α → List Node} {W : α → List Word}

theorem many {item : Reader (Option α)}
    (h : ∀ {acc K}, Takes (Drawn s acc) K item fun o =>
      Drawn s (acc.add (o.toList.flatMap N) (o.toList.flatMap W)))
    (rounds : Nat) :
    Takes (Drawn s acc) K (many item rounds) fun as =>
      Drawn s (acc.add (as.flatMap N) (as.flatMap W)) := by
  induction rounds generalizing K acc with
  | zero => exact cutOff
  | succ n ih =>
    refine bind h fun o => ?_
    cases o with
    | none => exact done (by simp)
    | some a => exact bind ih fun as => done (by simp)

theorem skipSemis (rounds : Nat) :
    Takes (Drawn s acc) K (Grammar.many (Grammar.acceptMark .semi) rounds) fun _ =>
      Drawn s acc := by
  induction rounds generalizing K with
  | zero => exact cutOff
  | succ n ih =>
    refine bind acceptMark fun o => ?_
    cases o with
    | none => exact idle
    | some _ => exact bind ih fun _ => idle

theorem grow {A : α → List Token → Prop} {change : α → Reader (Option α)}
    (h : ∀ {K} a, Takes (A a) K (change a) fun o => A (o.getD a)) (rounds : Nat) (a : α) :
    Takes (A a) K (grow change rounds a) A := by
  induction rounds generalizing K a with
  | zero => exact cutOff
  | succ n ih =>
    refine bind (h a) fun o => ?_
    cases o with
    | none => exact pure fun _ holds => holds
    | some b => exact ih b

theorem sepBy {sep : Mark} {item : Reader α}
    (h : ∀ {acc K}, Takes (Drawn s acc) K item fun a => Drawn s (acc.add (N a) (W a)))
    (rounds : Nat) :
    Takes (Drawn s acc) K (sepBy sep item rounds) fun as =>
      Drawn s (acc.add (as.flatMap N) (as.flatMap W)) := by
  induction rounds generalizing K acc with
  | zero => exact cutOff
  | succ n ih =>
    refine bind h fun a => bind acceptMark fun o => ?_
    cases o with
    | none => exact done (by simp)
    | some _ => exact bind ih fun as => done (by simp)

theorem upTo {closer : Mark} {item : Reader α}
    (h : ∀ {acc K}, Takes (Drawn s acc) K item fun a => Drawn s (acc.add (N a) (W a)))
    (rounds : Nat) :
    Takes (Drawn s acc) K (upTo closer item rounds) fun as =>
      Drawn s (acc.add (as.flatMap N) (as.flatMap W)) := by
  refine many ?_ rounds
  intro acc K
  refine atEnd_bind fun b => ?_
  cases b with
  | true => exact done (by simp)
  | false => exact bind h fun a => done (by simp)

theorem commaList {closer : Mark} {item : Reader α}
    (h : ∀ {acc K}, Takes (Drawn s acc) K item fun a => Drawn s (acc.add (N a) (W a)))
    (rounds : Nat) :
    Takes (Drawn s acc) K (commaList closer item rounds) fun as =>
      Drawn s (acc.add (as.flatMap N) (as.flatMap W)) := by
  induction rounds generalizing K acc with
  | zero => exact cutOff
  | succ n ih =>
    refine atEnd_bind fun b => ?_
    cases b with
    | true => exact done (by simp)
    | false =>
      refine bind h fun a => bind acceptMark fun o => ?_
      cases o with
      | none => exact done (by simp)
      | some _ => exact bind ih fun as => done (by simp)

/-- Items with a last token that stops where they do: each of them but the last one has a comma
behind it. -/
theorem sepByComma {item : Reader α} {stop : α → Nat}
    (h : ∀ {acc K}, Takes (Drawn s acc) K item fun a ts => Drawn s (acc.add (N a) (W a)) ts ∧
      ∃ t ∈ ts.getLast?, t.span.stop = stop a) (rounds : Nat) :
    Takes (Drawn s acc) K (Grammar.sepBy .comma item rounds) fun as ts =>
      Drawn s (acc.add (as.flatMap N) (as.flatMap W)) ts ∧
        Crowded stop as ts := by
  induction rounds generalizing K acc with
  | zero => exact cutOff
  | succ n ih =>
    refine bind h fun a => bind (acceptComma (stop a)) fun o => ?_
    cases o with
    | none => exact pure fun ts drawn => ⟨by simpa using drawn.1, .single⟩
    | some _ =>
      refine bind ((keep ih fun ts ts' misfit fits => misfit fits.of_append).behind
        fun ts h => ⟨h.1, h.2 rfl⟩) fun as => pure ?_
      rintro ts ⟨⟨drawn, crowded⟩, misfit⟩
      exact ⟨by simpa using drawn, crowded.cons misfit⟩

end Takes

end Grammar

end GoLayout
