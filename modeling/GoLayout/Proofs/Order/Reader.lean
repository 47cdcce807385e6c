import GoLayout.Proofs.Order.Landmark
import GoLayout.Proofs.Words.Reader

/-!
Landmarks in the order of reading. `Passes P I K r J` says: over tokens that stand where `P` says,
with the cursor as `I` says and on a token of a kind as `K` says, whatever `r` reads is as `J` says
of the cursor then. With one lemma for each reader and each way of joining readers, the landmarks of
a tree are followed through the source.
-/

namespace GoLayout.Grammar

open Landmark (InOrder)

variable {P : Span → Prop}

/-- Tokens one behind the other up to the end of the source. Those with characters of their own are
as `P` says, behind the others there is a byte of space, and closing parentheses are one byte wide. -/
structure Cursor.Orderly (P : Span → Prop) (c : Cursor) : Prop where
  ended : c.Ended
  apart : c.tokens.Pairwise fun t t' => t.span.stop ≤ t'.span.start
  rising : c.tokens.Pairwise fun t t' => t'.kind = .eof ∨ t.span.start < t'.span.start
  forward : ∀ t ∈ c.tokens, t.span.start ≤ t.span.stop
  solid : ∀ t ∈ c.tokens, t.kind.isSolid → t.span.start < t.span.stop ∧ P t.span
  narrow : ∀ t ∈ c.tokens, t.kind = .mark .rparen → t.span.stop = t.span.start + 1

theorem Cursor.Orderly.next {current t : Attached} {rest : List Attached}
    (h : Cursor.Orderly P ⟨current, t :: rest⟩) : Cursor.Orderly P ⟨t, rest⟩ where
  ended := h.ended.next
  apart := (List.pairwise_cons.mp h.apart).2
  rising := (List.pairwise_cons.mp h.rising).2
  forward := fun u mem => h.forward u (List.mem_cons_of_mem _ mem)
  solid := fun u mem => h.solid u (List.mem_cons_of_mem _ mem)
  narrow := fun u mem => h.narrow u (List.mem_cons_of_mem _ mem)

/-- Tokens among the landmarks are as `P` says, and declarations have a closing parenthesis of one
byte, if any. -/
def marksToken (P : Span → Prop) : Landmark → Prop
  | .token s => P s
  | .entry d => d.Narrow
  | _ => True

/-- The landmarks come before the offset. -/
def Before (P : Span → Prop) (ls : List Landmark) (here : Nat) : Prop :=
  InOrder (marksToken P) here 0 ls

/-- The landmarks come before the cursor. -/
def Passed (P : Span → Prop) (ls : List Landmark) (c : Cursor) : Prop :=
  Before P ls c.current.span.start

/-- The landmarks come before the cursor, and if a keyword follows, before the byte in front of
it. -/
def Closed (P : Span → Prop) (ls : List Landmark) (c : Cursor) : Prop :=
  Passed P ls c ∧
    ∀ k, c.current.kind = .keyword k → ∃ low < c.current.span.start, Before P ls low

theorem Passed.cut {ls ls' : List Landmark} {c : Cursor} (h : Passed P ls' c)
    (fewer : ls.Sublist ls') : Passed P ls c :=
  InOrder.sublist h fewer

variable {α β : Type} {I : Cursor → Prop} {K L : TokenKind → Prop} {J : α → Cursor → Prop}
  {M : β → Cursor → Prop}

def Passes (P : Span → Prop) (I : Cursor → Prop) (K : TokenKind → Prop) (r : Reader α)
    (J : α → Cursor → Prop) : Prop :=
  ∀ level c, c.Orderly P → K c.current.kind → I c →
    ∀ a c' level', r c level = .ok ((a, c'), level') → c'.Orderly P ∧ J a c'

namespace Passes

theorem pure {a : α} (h : ∀ c, I c → J a c) : Passes P I K (pure a) J := by
  rintro level c orderly - holds _ _ _ ⟨⟩
  exact ⟨orderly, h _ holds⟩

/-- The kind under the cursor is known. -/
theorem pureAt {a : α} (h : ∀ c, K c.current.kind → I c → J a c) :
    Passes P I K (Pure.pure a) J := by
  rintro level c orderly kind holds _ _ _ ⟨⟩
  exact ⟨orderly, h _ kind holds⟩

theorem idle {a : α} : Passes P I K (Pure.pure a) fun _ => I := pure fun _ holds => holds

/-- Behind the first reader, the kind under the cursor is not known any more. -/
theorem bind {r : Reader α} {f : α → Reader β} (first : Passes P I K r J)
    (next : ∀ a, Passes P (J a) anyKind (f a) M) : Passes P I K (r >>= f) M := by
  intro level c orderly kind holds b c' level' run
  change (Except.bind (r c level) fun x => f x.1.1 x.1.2 x.2) = .ok ((b, c'), level') at run
  cases read : r c level with
  | error _ =>
    rw [read] at run
    nomatch run
  | ok x =>
    obtain ⟨⟨a, c''⟩, level''⟩ := x
    rw [read] at run
    obtain ⟨orderly', holds'⟩ := first level c orderly kind holds a c'' level'' read
    exact next a level'' c'' orderly' trivial holds' b c' level' run

theorem map {r : Reader α} {f : α → β} (h : Passes P I K r fun a => M (f a)) :
    Passes P I K (f <$> r) M := by
  have joined : Passes P I K (r >>= fun a => Pure.pure (f a)) M :=
    bind h fun a => pure fun _ holds => holds
  exact joined

theorem mono {r : Reader α} {J' : α → Cursor → Prop} (h : Passes P I K r J)
    (weaker : ∀ a c, J a c → J' a c) : Passes P I K r J' := by
  intro level c orderly kind holds a c' level' run
  obtain ⟨orderly', holds'⟩ := h level c orderly kind holds a c' level' run
  exact ⟨orderly', weaker a _ holds'⟩

theorem behind {r : Reader α} {I' : Cursor → Prop} (h : Passes P I' K r J)
    (stronger : ∀ c, I c → I' c) : Passes P I K r J :=
  fun level c orderly kind holds => h level c orderly kind (stronger _ holds)

theorem ofAny {r : Reader α} (h : Passes P I anyKind r J) : Passes P I K r J :=
  fun level c orderly _ => h level c orderly trivial

theorem enclosed {r : Reader α} {e : Enclosure} (h : Passes P I K r J) :
    Passes P I K (enclosed e r) J := by
  intro level c orderly kind holds a c' level' run
  obtain ⟨inner, read, -⟩ := exists_of_enclosed run
  exact h _ c orderly kind holds a c' inner read

/-- A pure fact that is known before reading. -/
theorem given {p : Prop} {r : Reader α} (h : p → Passes P I K r J) :
    Passes P (fun c => p ∧ I c) K r J :=
  fun level c orderly kind holds => h holds.1 level c orderly kind holds.2

/-! ### Looking -/

theorem peek_bind {f : TokenKind → Reader β} (h : ∀ k, K k → Passes P I (· = k) (f k) M) :
    Passes P I K (peek >>= f) M := fun level c orderly kind => h c.current.kind kind level c orderly rfl

theorem peekNext_bind {f : TokenKind → Reader β} (h : ∀ k, Passes P I K (f k) M) :
    Passes P I K (peekNext >>= f) M := fun level c orderly kind => h _ level c orderly kind

theorem here_bind {f : Span → Reader β}
    (h : ∀ s, Passes P (fun c => I c ∧ s = c.current.span) K (f s) M) :
    Passes P I K (here >>= f) M :=
  fun level c orderly kind holds => h c.current.span level c orderly kind ⟨holds, rfl⟩

theorem lead_bind {f : Link → Reader β} (h : ∀ l, Passes P I K (f l) M) :
    Passes P I K (lead >>= f) M := fun level c orderly kind => h _ level c orderly kind

theorem trail_bind {f : Link → Reader β} (h : ∀ l, Passes P I K (f l) M) :
    Passes P I K (trail >>= f) M := fun level c orderly kind => h _ level c orderly kind

theorem get_bind {f : Cursor → Reader β} (h : ∀ c, Passes P I K (f c) M) :
    Passes P I K (get >>= f) M := fun level c orderly kind => h c level c orderly kind

theorem level_bind {f : Level → Reader β} (h : ∀ level, Passes P I K (f level) M) :
    Passes P I K (Grammar.level >>= f) M := fun level c orderly kind => h level level c orderly kind

theorem looksAt_bind {wanted : TokenKind} {f : Bool → Reader β}
    (h : ∀ b, Passes P I (fun k => K k ∧ b = (k == wanted)) (f b) M) :
    Passes P I K (looksAt wanted >>= f) M := fun level c orderly kind => h _ level c orderly ⟨kind, rfl⟩

theorem atEnd_bind {closer : Mark} {f : Bool → Reader β} (h : ∀ b, Passes P I K (f b) M) :
    Passes P I K (atEnd closer >>= f) M := fun level c orderly kind => h _ level c orderly kind

/-! ### Failing -/

theorem failAt {span : Span} {fault : SyntaxFault} : Passes P I K (failAt span fault : Reader α) J :=
  fun _ _ _ _ _ _ _ _ run => nomatch run

theorem unexpected {wanted : Expected} : Passes P I K (unexpected wanted : Reader α) J :=
  fun _ _ _ _ _ _ _ _ run => nomatch run

theorem cutOff : Passes P I K (cutOff : Reader α) J := fun _ _ _ _ _ _ _ _ run => nomatch run

/-! ### Moving -/

variable {ls : List Landmark}

/-- Stepping over a token that is not the last one. -/
theorem stepOver {J : Span → Cursor → Prop} (noEnd : ∀ k, K k → k ≠ .eof)
    (h : ∀ c (t : Token), c.current.toToken = t → K t.kind → I c → t.span.start ≤ t.span.stop →
      (t.kind.isSolid → t.span.start < t.span.stop ∧ P t.span) → ∀ c' : Cursor,
        t.span.stop ≤ c'.current.span.start →
        (c'.current.kind = .eof ∨ t.span.start < c'.current.span.start) → J t.span c') :
    Passes P I K step J := by
  rintro level ⟨current, rest⟩ orderly kind holds _ _ _ ⟨⟩
  cases rest with
  | nil =>
    obtain ⟨front, last, parts, isEnd, -⟩ := orderly.ended
    obtain ⟨-, only⟩ := List.append_eq_singleton_iff.mp parts.symm |>.resolve_right nofun
    cases only
    exact absurd isEnd (noEnd _ kind)
  | cons t ts =>
    have first : current.toToken ∈ Cursor.tokens ⟨current, t :: ts⟩ := List.mem_cons_self
    have behind := (List.pairwise_cons.mp orderly.apart).1 t.toToken List.mem_cons_self
    have rising := (List.pairwise_cons.mp orderly.rising).1 t.toToken List.mem_cons_self
    exact ⟨orderly.next, h _ current.toToken rfl kind holds (orderly.forward _ first)
      (orderly.solid _ first) _ behind rising⟩

/-- A token with characters of its own is a landmark. -/
theorem step (solid : ∀ k, K k → k.isSolid) :
    Passes P (Passed P ls) K Grammar.step fun span => Passed P (ls ++ [.token span]) := by
  refine stepOver ?_ ?_
  · rintro k kind rfl
    nomatch solid _ kind
  · rintro c _ rfl kind passed - wide c' behind -
    obtain ⟨real, holds⟩ := wide (solid _ kind)
    exact (InOrder.concat passed (l := .token _) real holds (Nat.le_refl _)).widen (Nat.le_refl 0)
      behind

theorem stepAt {k : TokenKind} (solid : k.isSolid) :
    Passes P (Passed P ls) (· = k) Grammar.step fun span => Passed P (ls ++ [.token span]) :=
  step (isSolid_of_eq solid)

theorem skip (noEnd : ∀ k, K k → k ≠ .eof) :
    Passes P (Passed P ls) K Grammar.step fun _ => Closed P ls := by
  refine stepOver noEnd ?_
  rintro c _ rfl - passed forward - c' behind rising
  refine ⟨InOrder.widen passed (Nat.le_refl 0) (Nat.le_trans forward behind), fun k isKeyword => ?_⟩
  rw [isKeyword] at rising
  exact ⟨_, rising.resolve_left nofun, passed⟩

theorem skipAt {k : TokenKind} (noEnd : k ≠ .eof) :
    Passes P (Passed P ls) (· = k) Grammar.step fun _ => Passed P ls :=
  (skip (ne_eof_of_eq noEnd)).mono fun _ _ closed => closed.1

theorem accept {wanted : TokenKind} (solid : wanted.isSolid) :
    Passes P (Passed P ls) K (accept wanted) fun o => Passed P (ls ++ o.toList.map .token) := by
  refine looksAt_bind fun b => ?_
  cases b with
  | true =>
    refine bind (step ?_) fun _ => pure fun _ passed => passed
    rintro k ⟨-, same⟩
    rw [eq_of_beq same.symm]
    exact solid
  | false => exact pure fun _ passed => by simpa using passed

/-- A token that may be there, and is no landmark. -/
theorem acceptAny {wanted : TokenKind} (noEnd : wanted ≠ .eof) :
    Passes P (Passed P ls) K (Grammar.accept wanted) fun _ => Passed P ls := by
  refine looksAt_bind fun b => ?_
  cases b with
  | true =>
    refine bind (skip ?_) fun _ => pure fun _ closed => closed.1
    rintro k ⟨-, same⟩
    rw [eq_of_beq same.symm]
    exact noEnd
  | false => exact idle

theorem expect {wanted : TokenKind} {expected : Expected} (solid : wanted.isSolid) :
    Passes P (Passed P ls) K (expect wanted expected) fun span => Passed P (ls ++ [.token span]) := by
  refine looksAt_bind fun b => ?_
  cases b with
  | true =>
    refine step ?_
    rintro k ⟨-, same⟩
    rw [eq_of_beq same.symm]
    exact solid
  | false => exact unexpected

theorem acceptMark {m : Mark} (solid : m ≠ .semi) :
    Passes P (Passed P ls) K (acceptMark m) fun o => Passed P (ls ++ o.toList.map .token) :=
  accept (TokenKind.isSolid_mark solid)

theorem skipMark {m : Mark} : Passes P (Passed P ls) K (Grammar.acceptMark m) fun _ => Passed P ls :=
  acceptAny nofun

theorem expectMark {m : Mark} (solid : m ≠ .semi) :
    Passes P (Passed P ls) K (expectMark m) fun span => Passed P (ls ++ [.token span]) :=
  expect (TokenKind.isSolid_mark solid)

/-- A closing parenthesis is a landmark of one byte. -/
theorem stepClosing (closing : ∀ k, K k → k = .mark .rparen) :
    Passes P (Passed P ls) K Grammar.step fun span c =>
      span.stop = span.start + 1 ∧ Passed P (ls ++ [.token span]) c := by
  intro level c orderly kind passed span c' level' run
  have solid : ∀ k, K k → k.isSolid := fun k holds => closing k holds ▸ rfl
  obtain ⟨orderly', passed'⟩ := step solid level c orderly kind passed span c' level' run
  obtain ⟨⟩ := run
  exact ⟨orderly', orderly.narrow _ List.mem_cons_self (closing _ kind), passed'⟩

theorem expectClosing : Passes P (Passed P ls) K (Grammar.expectMark .rparen) fun span c =>
    span.stop = span.start + 1 ∧ Passed P (ls ++ [.token span]) c := by
  refine looksAt_bind fun b => ?_
  cases b with
  | true => exact stepClosing fun k ⟨_, same⟩ => eq_of_beq same.symm
  | false => exact unexpected

theorem expectSemi : Passes P (Passed P ls) K (Grammar.expectMark .semi) fun _ => Passed P ls := by
  refine looksAt_bind fun b => ?_
  cases b with
  | true =>
    refine (skip ?_).mono fun _ _ closed => closed.1
    rintro k ⟨-, same⟩
    rw [eq_of_beq same.symm]
    nofun
  | false => exact unexpected

theorem expectKeyword {k : Keyword} :
    Passes P (Passed P ls) K (expectKeyword k) fun span => Passed P (ls ++ [.token span]) := expect rfl

theorem terminator : Passes P (Passed P ls) K terminator fun _ => Closed P ls := by
  have noKeyword {k : TokenKind} (other : ∀ k', k ≠ .keyword k') :
      Passes P (Passed P ls) (· = k) (return ()) fun _ => Closed P ls :=
    pureAt fun c kind passed => ⟨passed, fun k' isKeyword => absurd (kind ▸ isKeyword) (other k')⟩
  refine peek_bind fun k _ => ?_
  split
  · exact noKeyword nofun
  · exact noKeyword nofun
  · exact noKeyword nofun
  · exact bind (skip (ne_eof_of_eq nofun)) fun _ => idle
  · exact unexpected

theorem ident : Passes P (Passed P ls) K ident fun i => Passed P (ls ++ [i.landmark]) := by
  refine peek_bind fun k _ => ?_
  split
  · exact bind (stepAt rfl) fun _ => pure fun _ passed => passed
  · exact unexpected

theorem literal? : Passes P (Passed P ls) K literal? fun o =>
    Passed P (ls ++ o.toList.map Literal.landmark) := by
  refine peek_bind fun k _ => ?_
  split
  · exact bind (stepAt rfl) fun _ => pure fun _ passed => passed
  · exact pure fun _ passed => by simpa using passed

theorem stringLiteral : Passes P (Passed P ls) K stringLiteral fun l =>
    Passed P (ls ++ [l.landmark]) := by
  refine peek_bind fun k _ => ?_
  split
  · exact bind (stepAt rfl) fun _ => pure fun _ passed => passed
  · exact unexpected

/-- What is returned has the landmarks passed so far. -/
theorem done {a : α} {W : α → List Landmark} (h : W a = ls) :
    Passes P (Passed P ls) K (Pure.pure a) fun a => Passed P (W a) :=
  pure fun _ passed => h ▸ passed

theorem doneClosed {a : α} {W : α → List Landmark} (h : W a = ls) :
    Passes P (Closed P ls) K (Pure.pure a) fun a => Closed P (W a) :=
  pure fun _ closed => h ▸ closed

/-- It is enough that the landmarks come before the cursor. -/
theorem passed {r : Reader α} {W : α → List Landmark}
    (h : Passes P I K r fun a => Closed P (W a)) : Passes P I K r fun a => Passed P (W a) :=
  h.mono fun _ _ closed => closed.1

theorem cast {r : Reader α} {ls' : List Landmark} (h : ls = ls')
    (passes : Passes P (Passed P ls') K r J) : Passes P (Passed P ls) K r J := h ▸ passes

/-! ### Repetition

Each repetition is followed by induction on its rounds. -/

variable {W : α → List Landmark}

theorem many {item : Reader (Option α)}
    (h : ∀ {ls K}, Passes P (Passed P ls) K item fun o => Passed P (ls ++ o.toList.flatMap W))
    (rounds : Nat) :
    Passes P (Passed P ls) K (many item rounds) fun as => Passed P (ls ++ as.flatMap W) := by
  induction rounds generalizing K ls with
  | zero => exact cutOff
  | succ n ih =>
    refine bind h fun o => ?_
    cases o with
    | none => exact done (by simp)
    | some a => exact bind ih fun as => done (by simp)

/-- What holds of the items collected so far. -/
theorem collect {J : List α → Cursor → Prop} {item : Reader (Option α)}
    (h : ∀ {K} as, Passes P (J as) K item fun o => J (as ++ o.toList)) (rounds : Nat)
    (as : List α) : Passes P (J as) K (Grammar.many item rounds) fun bs => J (as ++ bs) := by
  induction rounds generalizing K as with
  | zero => exact cutOff
  | succ n ih =>
    refine bind (h as) fun o => ?_
    cases o with
    | none => exact pure fun _ holds => holds
    | some a =>
      refine bind (ih (as ++ [a])) fun bs => pure fun _ holds => ?_
      rwa [List.append_assoc] at holds

theorem skipSemis (rounds : Nat) :
    Passes P (Passed P ls) K (Grammar.many (Grammar.acceptMark .semi) rounds) fun _ =>
      Passed P ls := by
  induction rounds generalizing K with
  | zero => exact cutOff
  | succ n ih =>
    refine bind skipMark fun o => ?_
    cases o with
    | none => exact idle
    | some _ => exact bind ih fun _ => idle

/-- Further semicolons do not matter. -/
theorem skipSemis_closed (rounds : Nat) :
    Passes P (Closed P ls) K (Grammar.many (Grammar.acceptMark .semi) rounds) fun _ =>
      Closed P ls := by
  have semi {K : TokenKind → Prop} :
      Passes P (Closed P ls) K (Grammar.acceptMark .semi) fun _ => Closed P ls := by
    refine looksAt_bind fun b => ?_
    cases b with
    | true =>
      refine bind ((skip ?_).behind fun _ closed => closed.1) fun _ => idle
      rintro k ⟨-, same⟩
      rw [eq_of_beq same.symm]
      nofun
    | false => exact idle
  induction rounds generalizing K with
  | zero => exact cutOff
  | succ n ih =>
    refine bind semi fun o => ?_
    cases o with
    | none => exact idle
    | some _ => exact bind ih fun _ => idle

theorem grow {A : α → Cursor → Prop} {change : α → Reader (Option α)}
    (h : ∀ {K} a, Passes P (A a) K (change a) fun o => A (o.getD a)) (rounds : Nat) (a : α) :
    Passes P (A a) K (grow change rounds a) A := by
  induction rounds generalizing K a with
  | zero => exact cutOff
  | succ n ih =>
    refine bind (h a) fun o => ?_
    cases o with
    | none => exact pure fun _ holds => holds
    | some b => exact ih b

theorem sepBy_cons {sep : Mark} {item : Reader α}
    (h : ∀ {ls K}, Passes P (Passed P ls) K item fun a => Passed P (ls ++ W a)) (rounds : Nat) :
    Passes P (Passed P ls) K (sepBy sep item rounds) fun as c =>
      as ≠ [] ∧ Passed P (ls ++ as.flatMap W) c := by
  induction rounds generalizing K ls with
  | zero => exact cutOff
  | succ n ih =>
    refine bind h fun a => bind skipMark fun o => ?_
    cases o with
    | none => exact pure fun _ passed => ⟨List.cons_ne_nil _ _, by simpa using passed⟩
    | some _ =>
      refine bind ih fun as => pure fun _ ⟨_, passed⟩ => ⟨List.cons_ne_nil _ _, ?_⟩
      simpa using passed

theorem sepBy {sep : Mark} {item : Reader α}
    (h : ∀ {ls K}, Passes P (Passed P ls) K item fun a => Passed P (ls ++ W a)) (rounds : Nat) :
    Passes P (Passed P ls) K (sepBy sep item rounds) fun as => Passed P (ls ++ as.flatMap W) :=
  (sepBy_cons h rounds).mono fun _ _ passed => passed.2

theorem upTo {closer : Mark} {item : Reader α}
    (h : ∀ {ls K}, Passes P (Passed P ls) K item fun a => Passed P (ls ++ W a)) (rounds : Nat) :
    Passes P (Passed P ls) K (upTo closer item rounds) fun as => Passed P (ls ++ as.flatMap W) := by
  refine many ?_ rounds
  intro ls K
  refine atEnd_bind fun b => ?_
  cases b with
  | true => exact done (by simp)
  | false => exact bind h fun a => done (by simp)

theorem commaList {closer : Mark} {item : Reader α}
    (h : ∀ {ls K}, Passes P (Passed P ls) K item fun a => Passed P (ls ++ W a)) (rounds : Nat) :
    Passes P (Passed P ls) K (commaList closer item rounds) fun as =>
      Passed P (ls ++ as.flatMap W) := by
  induction rounds generalizing K ls with
  | zero => exact cutOff
  | succ n ih =>
    refine atEnd_bind fun b => ?_
    cases b with
    | true => exact done (by simp)
    | false =>
      refine bind h fun a => bind skipMark fun o => ?_
      cases o with
      | none => exact done (by simp)
      | some _ => exact bind ih fun as => done (by simp)

end Passes

end GoLayout.Grammar
