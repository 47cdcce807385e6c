import GoLayout.Grammar.Cursor
import GoLayout.Proofs.Token.Lexeme

/-!
What a reader makes of the tokens before it. `Meets P K r Q` says: over tokens that lie where `P`
says, with a kind as `K` says under the cursor, whatever `r` reads is as `Q` says, and `P` still
holds of the tokens left. One lemma for each reader and each way of joining readers lets a rule of
the grammar be followed from its first token to its last.
-/

namespace GoLayout.Grammar

/-- Every token from the cursor on lies where `P` says, unless it has no characters of its own. -/
def Cursor.Every (P : Span → Prop) (c : Cursor) : Prop :=
  ∀ t ∈ c.current :: c.rest, t.kind.isSolid → P t.span

theorem Cursor.Every.next {P : Span → Prop} {c : Cursor} (every : c.Every P) :
    c.next.Every P := by
  obtain ⟨current, rest⟩ := c
  cases rest with
  | nil => exact every
  | cons t ts => exact fun u mem => every u (List.mem_cons_of_mem _ mem)

variable {α β : Type} {P : Span → Prop} {K L : TokenKind → Prop} {Q : α → Prop} {R : β → Prop}

def Meets (P : Span → Prop) (K : TokenKind → Prop) (r : Reader α) (Q : α → Prop) : Prop :=
  ∀ level c, c.Every P → K c.current.kind → ∀ a c' level',
    r c level = .ok ((a, c'), level') → Q a ∧ c'.Every P

theorem isSolid_of_eq {k : TokenKind} (solid : k.isSolid) : ∀ k', k' = k → k'.isSolid :=
  fun _ same => same ▸ solid

theorem ne_eof_of_eq {k : TokenKind} (noEnd : k ≠ .eof) : ∀ k', k' = k → k' ≠ .eof :=
  fun _ same => same ▸ noEnd

theorem enclosed_apply (e : Enclosure) (r : Reader α) (c : Cursor) (level : Level) :
    enclosed e r c level =
      (r c (e.enter level)).bind fun x => .ok (x.1, e.leave level x.2) := rfl

/-- What is enclosed is read on a level of its own. -/
theorem exists_of_enclosed {r : Reader α} {e : Enclosure} {c c' : Cursor} {a : α}
    {level level' : Level} (run : enclosed e r c level = .ok ((a, c'), level')) :
    ∃ inner, r c (e.enter level) = .ok ((a, c'), inner) ∧ level' = e.leave level inner := by
  rw [enclosed_apply] at run
  cases read : r c (e.enter level) with
  | error _ =>
    rw [read] at run
    cases run
  | ok x =>
    obtain ⟨⟨a', c''⟩, inner⟩ := x
    rw [read] at run
    cases run
    exact ⟨inner, rfl, rfl⟩

/-- Any kind of token. -/
def anyKind : TokenKind → Prop := fun _ => True

namespace Meets

theorem pure {a : α} (h : Q a) : Meets P K (pure a) Q := by
  rintro level c every - a' c' level' ⟨⟩
  exact ⟨h, every⟩

/-- Behind the first reader, the kind under the cursor is not known any more. -/
theorem bind {r : Reader α} {f : α → Reader β} (first : Meets P K r Q)
    (next : ∀ a, Q a → Meets P anyKind (f a) R) : Meets P K (r >>= f) R := by
  intro level c every kind b c' level' run
  change (Except.bind (r c level) fun x => f x.1.1 x.1.2 x.2) = .ok ((b, c'), level') at run
  cases read : r c level with
  | error _ =>
    rw [read] at run
    nomatch run
  | ok x =>
    obtain ⟨⟨a, c''⟩, level''⟩ := x
    rw [read] at run
    obtain ⟨holds, every'⟩ := first level c every kind a c'' level'' read
    exact next a holds level'' c'' every' trivial b c' level' run

theorem map {r : Reader α} {f : α → β} (h : Meets P K r fun a => R (f a)) :
    Meets P K (f <$> r) R := by
  intro level c every kind b c' level' run
  change (Except.bind (r c level) fun x => .ok ((f x.1.1, x.1.2), x.2)) = .ok ((b, c'), level') at run
  cases read : r c level with
  | error _ =>
    rw [read] at run
    nomatch run
  | ok x =>
    rw [read] at run
    obtain ⟨holds, every'⟩ := h level c every kind x.1.1 x.1.2 x.2 read
    cases run
    exact ⟨holds, every'⟩

theorem mono {r : Reader α} {S : α → Prop} (h : Meets P K r Q) (weaker : ∀ a, Q a → S a) :
    Meets P K r S := by
  intro level c every kind a c' level' run
  obtain ⟨holds, every'⟩ := h level c every kind a c' level' run
  exact ⟨weaker a holds, every'⟩

theorem ofKind {r : Reader α} (h : Meets P L r Q) (stronger : ∀ k, K k → L k) : Meets P K r Q :=
  fun level c every kind => h level c every (stronger _ kind)

theorem ofAny {r : Reader α} (h : Meets P anyKind r Q) : Meets P K r Q :=
  h.ofKind fun _ _ => trivial

theorem enclosed {r : Reader α} {e : Enclosure} (h : Meets P K r Q) :
    Meets P K (enclosed e r) Q := by
  intro level c every kind a c' level' run
  obtain ⟨inner, read, -⟩ := exists_of_enclosed run
  exact h _ c every kind a c' inner read

/-! ### Looking -/

theorem peek_bind {f : TokenKind → Reader β} (h : ∀ k, K k → Meets P (· = k) (f k) R) :
    Meets P K (peek >>= f) R := fun level c every kind =>
  h c.current.kind kind level c every rfl

theorem peekNext_bind {f : TokenKind → Reader β} (h : ∀ k, Meets P K (f k) R) :
    Meets P K (peekNext >>= f) R := fun level c every kind => h _ level c every kind

theorem lead_bind {f : Link → Reader β} (h : ∀ l, Meets P K (f l) R) :
    Meets P K (lead >>= f) R := fun level c every kind => h _ level c every kind

theorem trail_bind {f : Link → Reader β} (h : ∀ l, Meets P K (f l) R) :
    Meets P K (trail >>= f) R := fun level c every kind => h _ level c every kind

theorem get_bind {f : Cursor → Reader β} (h : ∀ c, Meets P K (f c) R) :
    Meets P K (get >>= f) R := fun level c every kind => h c level c every kind

theorem level_bind {f : Level → Reader β} (h : ∀ level, Meets P K (f level) R) :
    Meets P K (Grammar.level >>= f) R := fun level c every kind => h level level c every kind

theorem looksAt_bind {wanted : TokenKind} {f : Bool → Reader β}
    (h : ∀ b, Meets P (fun k => K k ∧ b = (k == wanted)) (f b) R) :
    Meets P K (looksAt wanted >>= f) R := fun level c every kind => h _ level c every ⟨kind, rfl⟩

theorem here_bind {f : Span → Reader β} (solid : ∀ k, K k → k.isSolid)
    (h : ∀ s, P s → Meets P K (f s) R) : Meets P K (here >>= f) R := fun level c every kind =>
  h _ (every _ List.mem_cons_self (solid _ kind)) level c every kind

theorem atEnd_bind {closer : Mark} {f : Bool → Reader β} (h : ∀ b, Meets P K (f b) R) :
    Meets P K (atEnd closer >>= f) R := fun level c every kind => h _ level c every kind

/-! ### Failing -/

theorem failAt {span : Span} {fault : SyntaxFault} : Meets P K (failAt span fault : Reader α) Q :=
  fun _ _ _ _ _ _ _ run => nomatch run

theorem unexpected {wanted : Expected} : Meets P K (unexpected wanted : Reader α) Q :=
  fun _ _ _ _ _ _ _ run => nomatch run

theorem cutOff : Meets P K (cutOff : Reader α) Q := fun _ _ _ _ _ _ _ run => nomatch run

/-! ### Moving -/

/-- Stepping over a token with characters of its own gives a place as `P` says. -/
theorem step (solid : ∀ k, K k → k.isSolid) : Meets P K step P := by
  rintro level c every kind a c' level' ⟨⟩
  exact ⟨every _ List.mem_cons_self (solid _ kind), every.next⟩

theorem stepAt {k : TokenKind} (solid : k.isSolid) : Meets P (· = k) Grammar.step P :=
  step (isSolid_of_eq solid)

theorem stepAny : Meets P K Grammar.step fun _ => True := by
  rintro level c every - a c' level' ⟨⟩
  exact ⟨trivial, every.next⟩

theorem accept {wanted : TokenKind} (solid : wanted.isSolid) :
    Meets P K (accept wanted) fun o => ∀ s ∈ o, P s := by
  refine looksAt_bind fun b => ?_
  cases b with
  | true =>
    refine bind (step ?_) fun s holds => pure ?_
    · rintro k ⟨-, same⟩
      rw [eq_of_beq same.symm]
      exact solid
    · rintro _ ⟨⟩
      exact holds
  | false => exact pure nofun

theorem acceptSemi : Meets P K (acceptMark .semi) fun _ => True := by
  refine looksAt_bind fun b => ?_
  cases b with
  | true => exact bind stepAny fun _ _ => pure trivial
  | false => exact pure trivial

theorem expect {wanted : TokenKind} {expected : Expected} (solid : wanted.isSolid) :
    Meets P K (expect wanted expected) P := by
  refine looksAt_bind fun b => ?_
  cases b with
  | true =>
    refine step ?_
    rintro k ⟨-, same⟩
    rw [eq_of_beq same.symm]
    exact solid
  | false => exact unexpected

theorem expectSemi : Meets P K (expectMark .semi) fun _ => True := by
  refine looksAt_bind fun b => ?_
  cases b with
  | true => exact stepAny
  | false => exact unexpected

theorem acceptMark {m : Mark} (solid : m ≠ .semi) :
    Meets P K (acceptMark m) fun o => ∀ s ∈ o, P s :=
  accept (TokenKind.isSolid_mark solid)

theorem expectMark {m : Mark} (solid : m ≠ .semi) : Meets P K (expectMark m) P :=
  expect (TokenKind.isSolid_mark solid)

theorem expectKeyword {k : Keyword} : Meets P K (expectKeyword k) P := expect rfl

theorem terminator : Meets P K terminator fun _ => True := by
  refine peek_bind fun k _ => ?_
  split
  · exact pure trivial
  · exact pure trivial
  · exact pure trivial
  · exact bind stepAny fun _ _ => pure trivial
  · exact unexpected

theorem ident : Meets P K ident fun i => P i.span := by
  refine peek_bind fun k _ => ?_
  split
  · exact bind (stepAt rfl) fun s holds => pure holds
  · exact unexpected

theorem literal? : Meets P K literal? fun o => ∀ l ∈ o, P l.span := by
  refine peek_bind fun k _ => ?_
  split
  · refine bind (stepAt rfl) fun s holds => pure ?_
    rintro _ ⟨⟩
    exact holds
  · exact pure nofun

theorem stringLiteral : Meets P K stringLiteral fun l => P l.span := by
  refine peek_bind fun k _ => ?_
  split
  · exact bind (stepAt rfl) fun s holds => pure holds
  · exact unexpected

/-! ### Repetition

Each repetition is followed by induction on its rounds. -/

theorem many {item : Reader (Option α)} (h : ∀ {K}, Meets P K item fun o => ∀ a ∈ o, Q a)
    (rounds : Nat) : Meets P K (many item rounds) fun as => ∀ a ∈ as, Q a := by
  induction rounds generalizing K with
  | zero => exact cutOff
  | succ n ih =>
    refine bind h fun o holds => ?_
    cases o with
    | none => exact pure (by simp)
    | some a =>
      refine bind ih fun as rest => pure ?_
      exact List.forall_mem_cons.mpr ⟨holds a rfl, rest⟩

theorem skipSemis (rounds : Nat) :
    Meets P K (Grammar.many (Grammar.acceptMark .semi) rounds) fun _ => True :=
  (many (acceptSemi.mono fun _ _ _ _ => trivial) rounds).mono fun _ _ => trivial

theorem grow {change : α → Reader (Option α)}
    (h : ∀ {K} a, Q a → Meets P K (change a) fun o => ∀ b ∈ o, Q b) (rounds : Nat) (a : α)
    (start : Q a) : Meets P K (grow change rounds a) Q := by
  induction rounds generalizing K a with
  | zero => exact cutOff
  | succ n ih =>
    refine bind (h a start) fun o holds => ?_
    cases o with
    | none => exact pure start
    | some b => exact ih b (holds b rfl)

theorem sepBy {sep : Mark} {item : Reader α} (solid : sep ≠ .semi)
    (h : ∀ {K}, Meets P K item Q) (rounds : Nat) :
    Meets P K (sepBy sep item rounds) fun as => ∀ a ∈ as, Q a := by
  induction rounds generalizing K with
  | zero => exact cutOff
  | succ n ih =>
    refine bind h fun a holds => ?_
    refine bind (acceptMark solid) fun o _ => ?_
    cases o with
    | none => exact pure (by simpa using holds)
    | some _ =>
      refine bind ih fun as rest => pure ?_
      exact List.forall_mem_cons.mpr ⟨holds, rest⟩

theorem upTo {closer : Mark} {item : Reader α} (h : ∀ {K}, Meets P K item Q) (rounds : Nat) :
    Meets P K (upTo closer item rounds) fun as => ∀ a ∈ as, Q a := by
  refine many ?_ rounds
  intro K
  refine atEnd_bind fun b => ?_
  cases b with
  | true => exact pure nofun
  | false =>
    refine bind h fun a holds => pure ?_
    rintro _ ⟨⟩
    exact holds

theorem commaList {closer : Mark} {item : Reader α} (h : ∀ {K}, Meets P K item Q) (rounds : Nat) :
    Meets P K (commaList closer item rounds) fun as => ∀ a ∈ as, Q a := by
  induction rounds generalizing K with
  | zero => exact cutOff
  | succ n ih =>
    refine atEnd_bind fun b => ?_
    cases b with
    | true => exact pure (by simp)
    | false =>
      refine bind h fun a holds => ?_
      refine bind (acceptMark (by decide)) fun o _ => ?_
      cases o with
      | none => exact pure (by simpa using holds)
      | some _ =>
        refine bind ih fun as rest => pure ?_
        exact List.forall_mem_cons.mpr ⟨holds, rest⟩

end Meets

end GoLayout.Grammar
