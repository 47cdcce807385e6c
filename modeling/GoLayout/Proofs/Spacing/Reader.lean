import GoLayout.Proofs.Grammar.Cursor
import GoLayout.Proofs.Spacing.Tree

/-!
Reading tokens that were moved. `Moves m K r r' f` says: from a token of a kind as `K` says, `r'`
reads from the tokens moved by `m` what `r` reads from them as they are, changed by `f`; and it
fails where `r` does. With one lemma for each reader and each way of joining readers, a rule of the
grammar is followed on both sides at once.
-/

namespace GoLayout

/-- The token moved. One that has no characters of its own has no place of its own either, and
what leads to the end of the source is of no concern. -/
def Attached.move (m : Moving) (t : Attached) : Attached where
  kind := t.kind
  span := if t.kind.isSolid then m.span t.span else .point 0
  lead := if t.kind = .eof then none else t.lead
  trail := t.trail

namespace Grammar

def Cursor.move (m : Moving) (c : Cursor) : Cursor := ⟨c.current.move m, c.rest.map (·.move m)⟩

theorem Cursor.next_move (m : Moving) (c : Cursor) : (c.move m).next = c.next.move m := by
  obtain ⟨current, rest⟩ := c
  cases rest <;> rfl

variable {α β γ δ : Type} {m : Moving} {K L : TokenKind → Prop} {f : α → γ} {h : β → δ}

def Moves (m : Moving) (K : TokenKind → Prop) (r : Reader α) (r' : Reader γ) (f : α → γ) : Prop :=
  ∀ level c, K c.current.kind →
    (r' (c.move m) level).toOption =
      (r c level).toOption.map fun x => ((f x.1.1, x.1.2.move m), x.2)

namespace Moves

theorem pure {a : α} {b : γ} (same : b = f a) : Moves m K (pure a) (pure b) f := by
  rintro level c -
  rw [same]
  rfl

/-- Behind the first reader, the kind under the cursor is not known any more. -/
theorem bind {r : Reader α} {r' : Reader γ} {k : α → Reader β} {k' : γ → Reader δ}
    (first : Moves m K r r' f) (next : ∀ a, Moves m anyKind (k a) (k' (f a)) h) :
    Moves m K (r >>= k) (r' >>= k') h := by
  intro level c kind
  have read := first level c kind
  change (Except.bind (r' (c.move m) level) fun x => k' x.1.1 x.1.2 x.2).toOption =
    (Except.bind (r c level) fun x => k x.1.1 x.1.2 x.2).toOption.map _
  cases run : r c level with
  | error e =>
    cases run' : r' (c.move m) level with
    | error e' => rfl
    | ok x =>
      rw [run, run'] at read
      nomatch read
  | ok x =>
    cases run' : r' (c.move m) level with
    | error e' =>
      rw [run, run'] at read
      nomatch read
    | ok x' =>
      rw [run, run'] at read
      obtain rfl : x' = ((f x.1.1, x.1.2.move m), x.2) := Option.some.inj read
      exact next x.1.1 x.2 x.1.2 trivial

theorem map {r : Reader α} {r' : Reader γ} {g : α → β} {g' : γ → δ} (read : Moves m K r r' f)
    (same : ∀ a, g' (f a) = h (g a)) : Moves m K (g <$> r) (g' <$> r') h := by
  have joined : Moves m K (r >>= fun a => Pure.pure (g a)) (r' >>= fun c => Pure.pure (g' c)) h :=
    bind read fun a => pure (same a)
  exact joined

theorem ofKind {r : Reader α} {r' : Reader γ} (read : Moves m L r r' f)
    (stronger : ∀ k, K k → L k) : Moves m K r r' f :=
  fun level c kind => read level c (stronger _ kind)

theorem ofAny {r : Reader α} {r' : Reader γ} (read : Moves m anyKind r r' f) : Moves m K r r' f :=
  read.ofKind fun _ _ => trivial

theorem enclosed {r : Reader α} {r' : Reader γ} {e : Enclosure} (read : Moves m K r r' f) :
    Moves m K (enclosed e r) (enclosed e r') f := by
  intro level c kind
  have inside := read (e.enter level) c kind
  rw [enclosed_apply, enclosed_apply]
  cases run : r c (e.enter level) with
  | error d =>
    cases run' : r' (c.move m) (e.enter level) with
    | error e' => rfl
    | ok x =>
      rw [run, run'] at inside
      cases inside
  | ok x =>
    cases run' : r' (c.move m) (e.enter level) with
    | error e' =>
      rw [run, run'] at inside
      cases inside
    | ok x' =>
      rw [run, run'] at inside
      obtain rfl : x' = ((f x.1.1, x.1.2.move m), x.2) := Option.some.inj inside
      rfl

/-! ### Looking -/

theorem peek_bind {k : TokenKind → Reader β} {k' : TokenKind → Reader δ}
    (next : ∀ kind, K kind → Moves m (· = kind) (k kind) (k' kind) h) :
    Moves m K (peek >>= k) (peek >>= k') h := fun level c kind => next _ kind level c rfl

theorem peekNext_bind {k : TokenKind → Reader β} {k' : TokenKind → Reader δ}
    (next : ∀ kind, Moves m K (k kind) (k' kind) h) :
    Moves m K (peekNext >>= k) (peekNext >>= k') h := by
  intro level c kind
  change (k' (c.move m).next.current.kind (c.move m) level).toOption = _
  rw [c.next_move]
  exact next c.next.current.kind level c kind

/-- The group that leads a token leads it wherever the token is, if it is not the last one. -/
theorem lead_bind {k : Link → Reader β} {k' : Link → Reader δ}
    (noEnd : ∀ kind, K kind → kind ≠ .eof) (next : ∀ l, Moves m K (k l) (k' l) h) : Moves m K (lead >>= k) (lead >>= k') h := by
  intro level c kind
  have same : (c.move m).current.lead = c.current.lead := if_neg (noEnd _ kind)
  change (k' (c.move m).current.lead (c.move m) level).toOption = _
  rw [same]
  exact next c.current.lead level c kind

theorem trail_bind {k : Link → Reader β} {k' : Link → Reader δ}
    (next : ∀ l, Moves m K (k l) (k' l) h) : Moves m K (trail >>= k) (trail >>= k') h :=
  fun level c kind => next _ level c kind

theorem get_bind {k : Cursor → Reader β} {k' : Cursor → Reader δ}
    (next : ∀ c, Moves m K (k c) (k' (c.move m)) h) : Moves m K (get >>= k) (get >>= k') h :=
  fun level c kind => next c level c kind

theorem level_bind {k : Level → Reader β} {k' : Level → Reader δ}
    (next : ∀ level, Moves m K (k level) (k' level) h) :
    Moves m K (Grammar.level >>= k) (Grammar.level >>= k') h :=
  fun level c kind => next level level c kind

theorem looksAt_bind {wanted : TokenKind} {k : Bool → Reader β} {k' : Bool → Reader δ}
    (next : ∀ b, Moves m (fun kind => K kind ∧ b = (kind == wanted)) (k b) (k' b) h) :
    Moves m K (looksAt wanted >>= k) (looksAt wanted >>= k') h :=
  fun level c kind => next _ level c ⟨kind, rfl⟩

theorem atEnd_bind {closer : Mark} {k : Bool → Reader β} {k' : Bool → Reader δ}
    (next : ∀ b, Moves m (fun kind => kind = .eof → b = true) (k b) (k' b) h) :
    Moves m K (atEnd closer >>= k) (atEnd closer >>= k') h := by
  intro level c _
  refine next _ level c fun isEnd => ?_
  change (c.current.kind == .mark closer || c.current.kind == .eof) = true
  rw [isEnd]
  rfl

theorem here_bind {k : Span → Reader β} {k' : Span → Reader δ}
    (solid : ∀ kind, K kind → kind.isSolid) (next : ∀ s, Moves m K (k s) (k' (m.span s)) h) :
    Moves m K (here >>= k) (here >>= k') h := by
  intro level c kind
  have place : (c.move m).current.span = m.span c.current.span := if_pos (solid _ kind)
  change (k' (c.move m).current.span (c.move m) level).toOption = _
  rw [place]
  exact next c.current.span level c kind

/-! ### Failing -/

theorem failAt {span span' : Span} {fault fault' : SyntaxFault} :
    Moves m K (failAt span fault) (failAt span' fault') f := fun _ _ _ => rfl

theorem unexpected {wanted : Expected} : Moves m K (unexpected wanted) (unexpected wanted) f :=
  fun _ _ _ => rfl

theorem cutOff : Moves m K cutOff cutOff f := fun _ _ _ => rfl

/-! ### Moving on -/

theorem step (solid : ∀ kind, K kind → kind.isSolid) : Moves m K step step m.span := by
  refine here_bind solid fun s level c kind => ?_
  change some ((m.span s, (c.move m).next), level) = some ((m.span s, c.next.move m), level)
  rw [c.next_move]

theorem stepAt {kind : TokenKind} (solid : kind.isSolid) :
    Moves m (· = kind) Grammar.step Grammar.step m.span :=
  step (isSolid_of_eq solid)

/-- Where nothing of a semicolon is kept, its place does not matter. -/
theorem stepSemi : Moves m (· = .mark .semi) Grammar.step Grammar.step fun _ => .point 0 := by
  intro level c kind
  have place : (c.move m).current.span = .point 0 := by
    refine if_neg ?_
    rw [kind]
    decide
  change some (((c.move m).current.span, (c.move m).next), level) =
    some ((.point 0, c.next.move m), level)
  rw [place, c.next_move]

theorem accept {wanted : TokenKind} (solid : wanted.isSolid) :
    Moves m K (accept wanted) (accept wanted) (Option.map m.span) := by
  apply looksAt_bind
  intro b
  cases b with
  | true =>
    refine bind (step ?_) fun s => pure rfl
    rintro kind ⟨-, same⟩
    rw [eq_of_beq same.symm]
    exact solid
  | false => exact pure rfl

theorem acceptSemi : Moves m K (acceptMark .semi) (acceptMark .semi)
    (Option.map fun _ => .point 0) := by
  apply looksAt_bind
  intro b
  cases b with
  | true =>
    refine bind (stepSemi.ofKind ?_) fun s => pure rfl
    rintro kind ⟨-, same⟩
    exact eq_of_beq same.symm
  | false => exact pure rfl

theorem expect {wanted : TokenKind} {expected : Expected} (solid : wanted.isSolid) :
    Moves m K (expect wanted expected) (expect wanted expected) m.span := by
  apply looksAt_bind
  intro b
  cases b with
  | true =>
    apply step
    rintro kind ⟨-, same⟩
    rw [eq_of_beq same.symm]
    exact solid
  | false => exact unexpected

theorem expectSemi : Moves m K (expectMark .semi) (expectMark .semi) fun _ => .point 0 := by
  apply looksAt_bind
  intro b
  cases b with
  | true =>
    apply stepSemi.ofKind
    rintro kind ⟨-, same⟩
    exact eq_of_beq same.symm
  | false => exact unexpected

theorem acceptMark {mark : Mark} (solid : mark ≠ .semi) :
    Moves m K (acceptMark mark) (acceptMark mark) (Option.map m.span) :=
  accept (TokenKind.isSolid_mark solid)

theorem expectMark {mark : Mark} (solid : mark ≠ .semi) :
    Moves m K (expectMark mark) (expectMark mark) m.span :=
  expect (TokenKind.isSolid_mark solid)

theorem expectKeyword {k : Keyword} : Moves m K (expectKeyword k) (expectKeyword k) m.span :=
  expect rfl

theorem terminator : Moves m K terminator terminator id := by
  apply peek_bind
  intro kind _
  split
  · exact pure rfl
  · exact pure rfl
  · exact pure rfl
  · exact bind stepSemi fun _ => pure rfl
  · exact unexpected

theorem ident : Moves m K ident ident m.ident := by
  apply peek_bind
  intro kind _
  split
  · exact bind (stepAt rfl) fun s => pure rfl
  · exact unexpected

theorem literal? : Moves m K literal? literal? (Option.map m.literal) := by
  apply peek_bind
  intro kind _
  split
  · exact bind (stepAt rfl) fun s => pure rfl
  · exact pure rfl

theorem stringLiteral : Moves m K stringLiteral stringLiteral m.literal := by
  apply peek_bind
  intro kind _
  split
  · exact bind (stepAt rfl) fun s => pure rfl
  · exact unexpected

/-! ### Repetition

Each repetition is followed by induction on its rounds. -/

theorem many {item : Reader (Option α)} {item' : Reader (Option γ)}
    (each : ∀ {K}, Moves m K item item' (Option.map f)) (rounds : Nat) :
    Moves m K (many item rounds) (many item' rounds) (List.map f) := by
  induction rounds generalizing K with
  | zero => exact cutOff
  | succ n ih =>
    apply bind each
    intro o
    cases o with
    | none => exact pure rfl
    | some a => exact bind ih fun as => pure rfl

theorem skipSemis (rounds : Nat) :
    Moves m K (Grammar.many (Grammar.acceptMark .semi) rounds)
      (Grammar.many (Grammar.acceptMark .semi) rounds) (List.map fun _ => .point 0) :=
  many acceptSemi rounds

theorem grow {change : α → Reader (Option α)} {change' : γ → Reader (Option γ)}
    (each : ∀ {K} a, Moves m K (change a) (change' (f a)) (Option.map f)) (rounds : Nat) (a : α) :
    Moves m K (grow change rounds a) (grow change' rounds (f a)) f := by
  induction rounds generalizing K a with
  | zero => exact cutOff
  | succ n ih =>
    apply bind (each a)
    intro o
    cases o with
    | none => exact pure rfl
    | some b => exact ih b

theorem sepBy {sep : Mark} {item : Reader α} {item' : Reader γ} (solid : sep ≠ .semi)
    (each : ∀ {K}, Moves m K item item' f) (rounds : Nat) :
    Moves m K (sepBy sep item rounds) (sepBy sep item' rounds) (List.map f) := by
  induction rounds generalizing K with
  | zero => exact cutOff
  | succ n ih =>
    apply bind each
    intro a
    apply bind (acceptMark solid)
    intro o
    cases o with
    | none => exact pure rfl
    | some _ => exact bind ih fun as => pure rfl

/-- An item is read only where the source has not ended. -/
theorem upTo {closer : Mark} {item : Reader α} {item' : Reader γ}
    (each : Moves m (· ≠ .eof) item item' f) (rounds : Nat) :
    Moves m K (upTo closer item rounds) (upTo closer item' rounds) (List.map f) := by
  apply many
  intro K
  apply atEnd_bind
  intro b
  cases b with
  | true => exact pure rfl
  | false =>
    refine bind (each.ofKind ?_) fun a => pure rfl
    rintro kind goesOn rfl
    nomatch goesOn rfl

theorem commaList {closer : Mark} {item : Reader α} {item' : Reader γ}
    (each : ∀ {K}, Moves m K item item' f) (rounds : Nat) :
    Moves m K (commaList closer item rounds) (commaList closer item' rounds) (List.map f) := by
  induction rounds generalizing K with
  | zero => exact cutOff
  | succ n ih =>
    apply atEnd_bind
    intro b
    cases b with
    | true => exact pure rfl
    | false =>
      apply bind each
      intro a
      apply bind (acceptMark (by decide))
      intro o
      cases o with
      | none => exact pure rfl
      | some _ => exact bind ih fun as => pure rfl

end Moves

end Grammar

end GoLayout
