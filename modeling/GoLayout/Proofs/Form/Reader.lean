import GoLayout.Proofs.Grammar.Cursor
import GoLayout.Proofs.Progress.Reader

/-!
Readers followed along the tokens of a source. `Forms tape level c r J` says: with the cursor on `c`
and on this level, whatever `r` reads is as `J` says of the cursor then, and the level is the same
again. What is known about the cursor is known about `c`, so the rules of the grammar are followed
by stepping through them.
-/

namespace GoLayout.Grammar

/-- The tokens of a source, of which the last one is its end. -/
structure Tape where
  tokens : List Attached
  ended : ∃ last ∈ tokens.getLast?, last.kind = .eof

namespace Tape

variable {tape : Tape}

/-- The cursor is on a token of the tape. -/
def At (tape : Tape) (c : Cursor) : Prop := ∃ before, tape.tokens = before ++ c.left

/-- The cursor is on the token behind one that stops here. -/
def Behind (tape : Tape) (stop : Nat) (c : Cursor) : Prop :=
  ∃ before last, tape.tokens = before ++ last :: c.left ∧ last.kind.isSolid ∧ last.span.stop = stop

/-- What may stand behind a statement, spec or field, with the group that trails it: a semicolon is
its end, and what follows the semicolon tells the group. -/
inductive Closes (link : Link) : List Attached → Prop where
  | semi {t next : Attached} {rest : List Attached} (kind : t.kind = .mark .semi)
      (trail : link = next.trail) : Closes link (t :: next :: rest)
  | closer {t : Attached} {rest : List Attached}
      (kind : t.kind = .mark .rparen ∨ t.kind = .mark .rbrace ∨ t.kind = .eof)
      (trail : link = t.trail) : Closes link (t :: rest)

/-- A token stops here, and what is behind it closes with the group. -/
def Linked (tape : Tape) (stop : Nat) (link : Link) : Prop :=
  ∃ before last rest, tape.tokens = before ++ last :: rest ∧ last.kind.isSolid ∧
    last.span.stop = stop ∧ Closes link rest

/-- Only the last token has none behind it. -/
theorem At.exists_rest {current : Attached} {rest : List Attached} (at_ : tape.At ⟨current, rest⟩)
    (noEnd : current.kind ≠ .eof) : ∃ t ts, rest = t :: ts := by
  cases rest with
  | cons t ts => exact ⟨t, ts, rfl⟩
  | nil =>
    obtain ⟨before, parts⟩ := at_
    obtain ⟨last, isLast, isEnd⟩ := tape.ended
    rw [parts, Cursor.left, List.getLast?_concat] at isLast
    cases isLast
    exact absurd isEnd noEnd

theorem At.next {c : Cursor} (at_ : tape.At c) : tape.At c.next := by
  obtain ⟨current, rest⟩ := c
  cases rest with
  | nil => exact at_
  | cons t ts =>
    obtain ⟨before, parts⟩ := at_
    exact ⟨before ++ [current], by rw [parts, List.append_assoc]; rfl⟩

end Tape

theorem Enclosure.leave_enter (e : Enclosure) (outer : Level) :
    e.leave outer (e.enter outer) = outer := by
  cases e with
  | brackets => exact Int.add_sub_cancel outer 1
  | body => rfl
  | header => rfl

/-- The level of a header is below zero. -/
theorem Enclosure.header_low (outer : Level) : Enclosure.header.enter outer < 0 :=
  Int.negSucc_lt_zero 0

variable {α β : Type} {tape : Tape} {level : Level} {c : Cursor} {J : α → Cursor → Prop}
  {M : β → Cursor → Prop}

def Forms (tape : Tape) (level : Level) (c : Cursor) (r : Reader α) (J : α → Cursor → Prop) : Prop :=
  tape.At c → ∀ a c' level', r c level = .ok ((a, c'), level') →
    level' = level ∧ tape.At c' ∧ J a c'

namespace Forms

theorem pure {a : α} (h : J a c) : Forms tape level c (pure a) J := by
  rintro at_ _ _ _ ⟨⟩
  exact ⟨rfl, at_, h⟩

/-- Behind the first reader, all that is known is what it tells. -/
theorem bind {r : Reader α} {f : α → Reader β} (first : Forms tape level c r J)
    (next : ∀ a c', J a c' → Forms tape level c' (f a) M) : Forms tape level c (r >>= f) M := by
  intro at_ b c' level' run
  change (Except.bind (r c level) fun x => f x.1.1 x.1.2 x.2) = .ok ((b, c'), level') at run
  cases read : r c level with
  | error _ =>
    rw [read] at run
    cases run
  | ok x =>
    obtain ⟨⟨a, c''⟩, level''⟩ := x
    rw [read] at run
    obtain ⟨rfl, at', holds⟩ := first at_ a c'' level'' read
    exact next a c'' holds at' b c' level' run

theorem map {r : Reader α} {f : α → β} (h : Forms tape level c r fun a => M (f a)) :
    Forms tape level c (f <$> r) M := by
  have joined : Forms tape level c (r >>= fun a => Pure.pure (f a)) M :=
    bind h fun _ _ holds => pure holds
  exact joined

/-- What is there is as `J` says. -/
theorem optional {r : Reader α} (h : Forms tape level c r J) :
    Forms tape level c (do return some (← r)) fun o c' => ∀ a ∈ o, J a c' := by
  refine bind h fun a c' holds => pure ?_
  rintro _ ⟨⟩
  exact holds

theorem mono {r : Reader α} {J' : α → Cursor → Prop} (h : Forms tape level c r J)
    (weaker : ∀ a c', J a c' → J' a c') : Forms tape level c r J' := by
  intro at_ a c' level' run
  obtain ⟨same, at', holds⟩ := h at_ a c' level' run
  exact ⟨same, at', weaker a c' holds⟩

/-- Behind what is enclosed the level is the one before it. -/
theorem enclosed {r : Reader α} {e : Enclosure} (h : Forms tape (e.enter level) c r J) :
    Forms tape level c (enclosed e r) J := by
  intro at_ a c' level' run
  obtain ⟨inner, read, left⟩ := exists_of_enclosed run
  obtain ⟨rfl, at', holds⟩ := h at_ a c' inner read
  exact ⟨left.trans (e.leave_enter level), at', holds⟩

/-! ### Looking -/

theorem peek_bind {f : TokenKind → Reader β} (h : Forms tape level c (f c.current.kind) M) :
    Forms tape level c (peek >>= f) M := h

theorem peekNext_bind {f : TokenKind → Reader β} (h : Forms tape level c (f c.next.current.kind) M) :
    Forms tape level c (peekNext >>= f) M := h

theorem here_bind {f : Span → Reader β} (h : Forms tape level c (f c.current.span) M) :
    Forms tape level c (here >>= f) M := h

theorem lead_bind {f : Link → Reader β} (h : ∀ l, Forms tape level c (f l) M) :
    Forms tape level c (lead >>= f) M := h _

theorem trail_bind {f : Link → Reader β} (h : Forms tape level c (f c.current.trail) M) :
    Forms tape level c (trail >>= f) M := h

theorem get_bind {f : Cursor → Reader β} (h : Forms tape level c (f c) M) :
    Forms tape level c (get >>= f) M := h

theorem level_bind {f : Level → Reader β} (h : Forms tape level c (f level) M) :
    Forms tape level c (Grammar.level >>= f) M := h

theorem looksAt_bind {wanted : TokenKind} {f : Bool → Reader β}
    (h : ∀ b, Forms tape level c (f b) M) : Forms tape level c (looksAt wanted >>= f) M := h _

theorem atEnd_bind {closer : Mark} {f : Bool → Reader β} (h : ∀ b, Forms tape level c (f b) M) :
    Forms tape level c (atEnd closer >>= f) M := h _

/-! ### Failing -/

theorem failAt {span : Span} {fault : SyntaxFault} :
    Forms tape level c (failAt span fault : Reader α) J := by
  intro _ _ _ _ run
  cases run

theorem unexpected {wanted : Expected} : Forms tape level c (unexpected wanted : Reader α) J := failAt

theorem cutOff : Forms tape level c (cutOff : Reader α) J := failAt

/-! ### Moving -/

theorem stepAny : Forms tape level c Grammar.step fun _ _ => True := by
  rintro at_ _ _ _ ⟨⟩
  exact ⟨rfl, at_.next, trivial⟩

theorem step (solid : c.current.kind.isSolid) :
    Forms tape level c Grammar.step fun span => tape.Behind span.stop := by
  obtain ⟨current, rest⟩ := c
  rintro at_ _ _ _ ⟨⟩
  obtain ⟨t, ts, rfl⟩ := at_.exists_rest (by
    intro isEnd
    rw [show current.kind = .eof from isEnd] at solid
    cases solid)
  obtain ⟨before, parts⟩ := at_
  exact ⟨rfl, Tape.At.next ⟨before, parts⟩, before, current, parts, solid, rfl⟩

/-- The token is there, or the cursor stays. -/
theorem accept_bind {wanted : TokenKind} {f : Option Span → Reader β} (solid : wanted.isSolid)
    (absent : Forms tape level c (f none) M)
    (present : ∀ span c', tape.Behind span.stop c' → Forms tape level c' (f (some span)) M) :
    Forms tape level c (accept wanted >>= f) M := by
  have looked : Forms tape level c (accept wanted)
      fun o c' => o = none ∧ c' = c ∨ ∃ span, o = some span ∧ tape.Behind span.stop c' := by
    show Forms tape level c (if c.current.kind == wanted then do return some (← Grammar.step)
      else return none) _
    split
    · rename_i same
      rw [← eq_of_beq same] at solid
      exact bind (step solid) fun span _ behind => pure (.inr ⟨span, rfl, behind⟩)
    · exact pure (.inl ⟨rfl, rfl⟩)
  refine bind looked ?_
  rintro _ c' (⟨rfl, rfl⟩ | ⟨span, rfl, behind⟩)
  · exact absent
  · exact present span c' behind

/-- A token that may be there, and does not count. -/
theorem skip {wanted : TokenKind} :
    Forms tape level c (accept wanted) fun o c' => o = none → c' = c := by
  show Forms tape level c (if c.current.kind == wanted then do return some (← Grammar.step)
    else return none) _
  split
  · exact bind stepAny fun _ _ _ => pure nofun
  · exact pure fun _ => rfl

theorem skip_bind {wanted : TokenKind} {f : Option Span → Reader β}
    (absent : Forms tape level c (f none) M)
    (present : ∀ span c', Forms tape level c' (f (some span)) M) :
    Forms tape level c (accept wanted >>= f) M := by
  refine bind skip fun o c' same => ?_
  cases o with
  | none =>
    obtain rfl := same rfl
    exact absent
  | some span => exact present span c'

theorem expect {wanted : TokenKind} {expected : Expected} (solid : wanted.isSolid) :
    Forms tape level c (expect wanted expected) fun span => tape.Behind span.stop := by
  show Forms tape level c (if c.current.kind == wanted then Grammar.step
    else Grammar.unexpected expected) _
  split
  · rename_i same
    rw [← eq_of_beq same] at solid
    exact step solid
  · exact unexpected

theorem acceptMark_bind {m : Mark} {f : Option Span → Reader β} (solid : m ≠ .semi)
    (absent : Forms tape level c (f none) M)
    (present : ∀ span c', tape.Behind span.stop c' → Forms tape level c' (f (some span)) M) :
    Forms tape level c (acceptMark m >>= f) M :=
  accept_bind (TokenKind.isSolid_mark solid) absent present

theorem expectMark {m : Mark} (solid : m ≠ .semi) :
    Forms tape level c (expectMark m) fun span => tape.Behind span.stop :=
  expect (TokenKind.isSolid_mark solid)

theorem expectSemi : Forms tape level c (Grammar.expectMark .semi) fun _ _ => True := by
  show Forms tape level c (if c.current.kind == .mark .semi then Grammar.step
    else Grammar.unexpected _) _
  split
  · exact stepAny
  · exact unexpected

theorem expectKeyword {k : Keyword} :
    Forms tape level c (expectKeyword k) fun span => tape.Behind span.stop := expect rfl

/-- Behind its end, the group that trails an entry is known. -/
theorem terminator : Forms tape level c terminator fun _ c' =>
    ∀ stop, tape.Behind stop c → tape.Linked stop c'.current.trail := by
  have closer (kind : c.current.kind = .mark .rparen ∨ c.current.kind = .mark .rbrace ∨
      c.current.kind = .eof) : Forms tape level c (return ()) fun _ c' =>
        ∀ stop, tape.Behind stop c → tape.Linked stop c'.current.trail := by
    refine pure ?_
    rintro _ ⟨before, last, parts, solid, rfl⟩
    exact ⟨before, last, c.left, parts, solid, rfl, .closer kind rfl⟩
  refine peek_bind ?_
  split
  · exact closer (.inl ‹_›)
  · exact closer (.inr (.inl ‹_›))
  · exact closer (.inr (.inr ‹_›))
  · rename_i kind
    obtain ⟨current, rest⟩ := c
    rintro at_ _ _ _ ⟨⟩
    obtain ⟨t, ts, rfl⟩ := at_.exists_rest (by
      intro isEnd
      cases kind.symm.trans isEnd)
    refine ⟨rfl, at_.next, ?_⟩
    rintro _ ⟨before, last, parts, solid, rfl⟩
    exact ⟨before, last, _, parts, solid, rfl, .semi kind rfl⟩
  · exact unexpected

theorem ident : Forms tape level c ident fun i => tape.Behind i.span.stop := by
  refine peek_bind ?_
  split
  · rename_i kind
    exact bind (step (by rw [kind]; rfl)) fun _ _ behind => pure behind
  · exact unexpected

theorem stringLiteral : Forms tape level c stringLiteral fun l => tape.Behind l.span.stop := by
  refine peek_bind ?_
  split
  · rename_i kind
    exact bind (step (by rw [kind]; rfl)) fun _ _ behind => pure behind
  · exact unexpected

theorem literal? : Forms tape level c literal? fun o c' =>
    (∀ l ∈ o, tape.Behind l.span.stop c') ∧ (o = none → c' = c) := by
  refine peek_bind ?_
  split
  · rename_i kind
    refine bind (step (by rw [kind]; rfl)) fun _ _ behind => pure ⟨?_, nofun⟩
    rintro _ ⟨⟩
    exact behind
  · exact pure ⟨nofun, fun _ => rfl⟩

/-! ### Repetition

Each repetition is followed by induction on its rounds. -/

variable {Q : α → Prop}

theorem many {item : Reader (Option α)}
    (h : ∀ c, Forms tape level c item fun o _ => ∀ a ∈ o, Q a) (rounds : Nat) :
    Forms tape level c (many item rounds) fun as _ => ∀ a ∈ as, Q a := by
  induction rounds generalizing c with
  | zero => exact cutOff
  | succ n ih =>
    refine bind (h c) fun o c' holds => ?_
    cases o with
    | none => exact pure (by simp)
    | some a => exact bind ih fun as _ rest => pure (List.forall_mem_cons.mpr ⟨holds a rfl, rest⟩)

theorem skipSemis (rounds : Nat) :
    Forms tape level c (Grammar.many (acceptMark .semi) rounds) fun _ _ => True := by
  have semi (c : Cursor) : Forms tape level c (acceptMark .semi) fun o _ => ∀ a ∈ o, True :=
    skip.mono fun _ _ _ _ _ => trivial
  exact (many semi rounds).mono fun _ _ _ => trivial

/-- `A` holds of the value after each round, and `D` of the value after the last one. -/
theorem grow {A D : α → Cursor → Prop} {change : α → Reader (Option α)}
    (h : ∀ a c, A a c → Forms tape level c (change a) fun o c' =>
      (∀ b ∈ o, A b c') ∧ (o = none → A a c' ∧ D a c')) (rounds : Nat) (a : α) (start : A a c) :
    Forms tape level c (grow change rounds a) fun a c' => A a c' ∧ D a c' := by
  induction rounds generalizing c a with
  | zero => exact cutOff
  | succ n ih =>
    refine bind (h a c start) fun o c' ⟨goes, ends⟩ => ?_
    cases o with
    | none => exact pure (ends rfl)
    | some b => exact ih b (goes b rfl)

/-- `J` holds of the last item behind it. -/
theorem sepBy {sep : Mark} {item : Reader α}
    (h : ∀ c, Forms tape level c item fun a c' => Q a ∧ J a c') (rounds : Nat) :
    Forms tape level c (sepBy sep item rounds) fun as c' =>
      (∀ a ∈ as, Q a) ∧ ∃ last ∈ as.getLast?, J last c' := by
  induction rounds generalizing c with
  | zero => exact cutOff
  | succ n ih =>
    refine bind (h c) fun a c' ⟨holds, here⟩ => ?_
    refine skip_bind ?_ fun _ c' => ?_
    · exact pure ⟨by simpa using holds, a, rfl, here⟩
    · refine bind ih fun as c' ⟨rest, last, isLast, here⟩ => pure ⟨?_, last, ?_, here⟩
      · exact List.forall_mem_cons.mpr ⟨holds, rest⟩
      · rw [List.getLast?_cons, isLast]
        rfl

theorem upTo {closer : Mark} {item : Reader α}
    (h : ∀ c, Forms tape level c item fun a _ => Q a) (rounds : Nat) :
    Forms tape level c (upTo closer item rounds) fun as _ => ∀ a ∈ as, Q a := by
  refine many (fun c => atEnd_bind fun b => ?_) rounds
  cases b with
  | true => exact pure nofun
  | false => exact optional (h c)

theorem commaList {closer : Mark} {item : Reader α}
    (h : ∀ c, Forms tape level c item fun a _ => Q a) (rounds : Nat) :
    Forms tape level c (commaList closer item rounds) fun as _ => ∀ a ∈ as, Q a := by
  induction rounds generalizing c with
  | zero => exact cutOff
  | succ n ih =>
    refine atEnd_bind fun b => ?_
    cases b with
    | true => exact pure (by simp)
    | false =>
      refine bind (h c) fun a _ holds => ?_
      refine skip_bind (pure (by simpa using holds)) fun _ _ => ?_
      exact bind ih fun as _ rest => pure (List.forall_mem_cons.mpr ⟨holds, rest⟩)

end Forms

end GoLayout.Grammar
