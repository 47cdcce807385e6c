import GoLayout.Grammar.Phrase
import GoLayout.Proofs.Grammar.Cursor

/-!
How far readers move. `Finishes n K r k` says: on any of the last `n + 1` tokens of a source, if it
is of a kind as `K` says, `r` ends with a value `a` and the cursor at least `k a` tokens further, or
with a fault of the source, but it never comes to the bound on its rounds or on its depth. With one
lemma for each reader and each way of joining readers, a repetition finishes because each of its
rounds moves the cursor.
-/

namespace GoLayout.Grammar

/-- The tokens from the cursor on. -/
def Cursor.left (c : Cursor) : List Attached := c.current :: c.rest

/-- The last token is the end of the source. -/
def Cursor.Closed (c : Cursor) : Prop := ∃ t ∈ c.left.getLast?, t.kind = .eof

theorem Cursor.Closed.of_append {c c' : Cursor} {passed : List Attached} (closed : c.Closed)
    (parts : c.left = passed ++ c'.left) : c'.Closed := by
  obtain ⟨last, isLast, isEnd⟩ := closed
  have some : c'.left ≠ [] := List.cons_ne_nil _ _
  rw [parts, List.getLast?_append_of_ne_nil _ some] at isLast
  exact ⟨last, isLast, isEnd⟩

variable {α β : Type} {n : Nat} {K L : TokenKind → Prop} {k : α → Nat} {l : β → Nat}

/-- The way in which a reader ends on `c`: the cursor is on one of the tokens from `c` on, with at
least `k a` tokens passed, or there is a fault in the source. -/
def Ends (c : Cursor) (k : α → Nat) : Except Diagnostic ((α × Cursor) × Level) → Prop
  | .ok ((a, c'), _) => ∃ passed, c.left = passed ++ c'.left ∧ k a ≤ passed.length
  | .error d => d.fault ≠ .grammatical .cutOff

def Finishes (n : Nat) (K : TokenKind → Prop) (r : Reader α) (k : α → Nat) : Prop :=
  ∀ level c, c.Closed → K c.current.kind → c.rest.length ≤ n → Ends c k (r c level)

/-- A round that goes on passes a token. -/
def ifSome : Option α → Nat
  | some _ => 1
  | none => 0

namespace Finishes

theorem pure {a : α} (h : k a = 0) : Finishes n K (pure a) k :=
  fun _ _ _ _ _ => ⟨[], rfl, Nat.le_of_eq h⟩

theorem idle {a : α} : Finishes n K (Pure.pure a) fun _ => 0 := pure rfl

/-- Behind the tokens that the first reader passes, so many fewer are left. -/
theorem bindMoving {r : Reader α} {f : α → Reader β} (first : Finishes n K r k)
    (next : ∀ a m, m + k a = n → Finishes m anyKind (f a) fun b => l b - k a) :
    Finishes n K (r >>= f) l := by
  intro level c closed kind short
  have firstEnds := first level c closed kind short
  change Ends c l (Except.bind (r c level) fun x => f x.1.1 x.1.2 x.2)
  cases read : r c level with
  | error d =>
    rw [read] at firstEnds
    exact firstEnds
  | ok x =>
    obtain ⟨⟨a, c'⟩, level'⟩ := x
    rw [read] at firstEnds
    obtain ⟨passed, parts, moved⟩ := firstEnds
    have count := congrArg List.length parts
    simp only [Cursor.left, List.length_append, List.length_cons] at count
    have nextEnds :=
      next a (n - k a) (by omega) level' c' (closed.of_append parts) trivial (by omega)
    change Ends c l (f a c' level')
    cases readNext : f a c' level' with
    | error d =>
      rw [readNext] at nextEnds
      exact nextEnds
    | ok x =>
      obtain ⟨⟨b, c''⟩, _⟩ := x
      rw [readNext] at nextEnds
      obtain ⟨passed', parts', moved'⟩ := nextEnds
      refine ⟨passed ++ passed', by rw [parts, parts', List.append_assoc], ?_⟩
      rw [List.length_append]
      dsimp only at moved'
      omega

theorem mono {r : Reader α} {m : Nat} {k' : α → Nat} (h : Finishes n K r k) (fewer : m ≤ n)
    (less : ∀ a, k' a ≤ k a) : Finishes m K r k' := by
  intro level c closed kind short
  have ends := h level c closed kind (Nat.le_trans short fewer)
  cases read : r c level with
  | error d =>
    rw [read] at ends
    exact ends
  | ok x =>
    rw [read] at ends
    obtain ⟨passed, parts, moved⟩ := ends
    exact ⟨passed, parts, Nat.le_trans (less _) moved⟩

theorem still {r : Reader α} (h : Finishes n K r k) : Finishes n K r fun _ => 0 :=
  h.mono (Nat.le_refl n) fun _ => Nat.zero_le _

/-- Where it does not count how far the first reader moves. -/
theorem bind {r : Reader α} {f : α → Reader β} (first : Finishes n K r k)
    (next : ∀ a, Finishes n anyKind (f a) l) : Finishes n K (r >>= f) l := by
  refine bindMoving first.still fun a m left => ?_
  obtain rfl : m = n := left
  exact next a

/-- Only where there is something to read, the reader has to move. -/
theorem bindOption {r : Reader (Option α)} {f : Option α → Reader β}
    (first : Finishes n K r ifSome) (none : Finishes n anyKind (f none) l)
    (some : ∀ a m, m + 1 = n → Finishes m anyKind (f (some a)) fun b => l b - 1) :
    Finishes n K (r >>= f) l := by
  refine bindMoving first fun o m left => ?_
  cases o with
  | none =>
    obtain rfl : m = n := left
    exact none
  | some a => exact some a m left

theorem map {r : Reader α} {f : α → β} (h : Finishes n K r k) :
    Finishes n K (f <$> r) fun _ => 0 := by
  rw [map_eq_pure_bind]
  exact bind h fun _ => idle

theorem ofKind {r : Reader α} (h : Finishes n L r k) (stronger : ∀ k, K k → L k) :
    Finishes n K r k :=
  fun level c closed kind => h level c closed (stronger _ kind)

theorem ofAny {r : Reader α} (h : Finishes n anyKind r k) : Finishes n K r k :=
  h.ofKind fun _ _ => trivial

theorem enclosed {r : Reader α} {e : Enclosure} (h : Finishes n K r k) :
    Finishes n K (enclosed e r) k := by
  intro level c closed kind short
  have ends := h (e.enter level) c closed kind short
  rw [enclosed_apply]
  cases read : r c (e.enter level) with
  | error d =>
    rw [read] at ends
    exact ends
  | ok x =>
    rw [read] at ends
    exact ends

/-! ### Looking -/

theorem peek_bind {f : TokenKind → Reader β} (h : ∀ k, K k → Finishes n (· = k) (f k) l) :
    Finishes n K (peek >>= f) l := fun level c closed kind => h _ kind level c closed rfl

theorem peekNext_bind {f : TokenKind → Reader β} (h : ∀ k, Finishes n K (f k) l) :
    Finishes n K (peekNext >>= f) l := fun level c closed kind => h _ level c closed kind

theorem here_bind {f : Span → Reader β} (h : ∀ s, Finishes n K (f s) l) :
    Finishes n K (here >>= f) l := fun level c closed kind => h _ level c closed kind

theorem lead_bind {f : Link → Reader β} (h : ∀ d, Finishes n K (f d) l) :
    Finishes n K (lead >>= f) l := fun level c closed kind => h _ level c closed kind

theorem trail_bind {f : Link → Reader β} (h : ∀ d, Finishes n K (f d) l) :
    Finishes n K (trail >>= f) l := fun level c closed kind => h _ level c closed kind

theorem get_bind {f : Cursor → Reader β} (h : ∀ c, Finishes n K (f c) l) :
    Finishes n K (get >>= f) l := fun level c closed kind => h c level c closed kind

theorem level_bind {f : Level → Reader β} (h : ∀ level, Finishes n K (f level) l) :
    Finishes n K (Grammar.level >>= f) l := fun level c closed kind => h level level c closed kind

theorem looksAt_bind {wanted : TokenKind} {f : Bool → Reader β}
    (h : ∀ b, Finishes n (fun k => K k ∧ b = (k == wanted)) (f b) l) :
    Finishes n K (looksAt wanted >>= f) l := fun level c closed kind => h _ level c closed ⟨kind, rfl⟩

theorem atEnd_bind {closer : Mark} {f : Bool → Reader β} (h : ∀ b, Finishes n K (f b) l) :
    Finishes n K (atEnd closer >>= f) l := fun level c closed kind => h _ level c closed kind

/-! ### Failing -/

theorem failAt {span : Span} {fault : SyntaxFault} (real : fault ≠ .cutOff) :
    Finishes n K (failAt span fault : Reader α) k := by
  rintro level c - - - ⟨⟩
  exact real rfl

theorem unexpected {wanted : Expected} : Finishes n K (unexpected wanted : Reader α) k :=
  here_bind fun _ => peek_bind fun _ _ => failAt nofun

/-! ### Moving -/

/-- Stepping over a token that is not the last one passes it. -/
theorem step (noEnd : ∀ k, K k → k ≠ .eof) : Finishes n K step fun _ => 1 := by
  rintro level ⟨current, rest⟩ closed kind -
  cases rest with
  | nil =>
    obtain ⟨last, isLast, isEnd⟩ := closed
    cases isLast
    exact absurd isEnd (noEnd _ kind)
  | cons t ts => exact ⟨[current], rfl, Nat.le_refl 1⟩

theorem stepAt {k : TokenKind} (noEnd : k ≠ .eof) :
    Finishes n (· = k) Grammar.step fun _ => 1 := step (ne_eof_of_eq noEnd)

theorem accept {wanted : TokenKind} (noEnd : wanted ≠ .eof) :
    Finishes n K (accept wanted) ifSome := by
  refine looksAt_bind fun b => ?_
  cases b with
  | true =>
    refine bindMoving (step ?_) fun _ _ _ => pure rfl
    rintro k ⟨-, same⟩
    rw [eq_of_beq same.symm]
    exact noEnd
  | false => exact pure rfl

theorem expect {wanted : TokenKind} {expected : Expected} (noEnd : wanted ≠ .eof) :
    Finishes n K (expect wanted expected) fun _ => 1 := by
  refine looksAt_bind fun b => ?_
  cases b with
  | true =>
    refine step ?_
    rintro k ⟨-, same⟩
    rw [eq_of_beq same.symm]
    exact noEnd
  | false => exact unexpected

theorem acceptMark {m : Mark} : Finishes n K (acceptMark m) ifSome := accept nofun

theorem expectMark {m : Mark} : Finishes n K (expectMark m) fun _ => 1 := expect nofun

theorem expectKeyword {k : Keyword} : Finishes n K (expectKeyword k) fun _ => 1 := expect nofun

theorem terminator : Finishes n K terminator fun _ => 0 := by
  refine peek_bind fun k _ => ?_
  split
  · exact pure rfl
  · exact pure rfl
  · exact pure rfl
  · exact bind (stepAt nofun) fun _ => pure rfl
  · exact unexpected

theorem ident : Finishes n K ident fun _ => 1 := by
  refine peek_bind fun k _ => ?_
  split
  · exact bindMoving (stepAt nofun) fun _ _ _ => pure rfl
  · exact unexpected

theorem literal? : Finishes n K literal? ifSome := by
  refine peek_bind fun k _ => ?_
  split
  · exact bindMoving (stepAt nofun) fun _ _ _ => pure rfl
  · exact pure rfl

theorem stringLiteral : Finishes n K stringLiteral fun _ => 1 := by
  refine peek_bind fun k _ => ?_
  split
  · exact bindMoving (stepAt nofun) fun _ _ _ => pure rfl
  · exact unexpected

/-! ### Repetition

Each repetition is followed by induction on its rounds. A round that goes on leaves fewer tokens, so
more rounds than tokens are enough. -/

variable {rounds : Nat}

theorem many {item : Reader (Option α)} (h : Finishes n anyKind item ifSome)
    (enough : n < rounds) : Finishes n K (many item rounds) fun _ => 0 := by
  induction rounds generalizing n K with
  | zero => nomatch enough
  | succ rounds ih =>
    refine bindOption h.ofAny (pure rfl) fun a m fewer => ?_
    exact bind (ih (h.mono (by omega) fun _ => Nat.le_refl _) (by omega)) fun _ => pure rfl

theorem grow {change : α → Reader (Option α)} (h : ∀ a, Finishes n anyKind (change a) ifSome)
    (enough : n < rounds) (a : α) : Finishes n K (grow change rounds a) fun _ => 0 := by
  induction rounds generalizing n K a with
  | zero => nomatch enough
  | succ rounds ih =>
    refine bindOption (h a).ofAny (pure rfl) fun b m fewer => ?_
    exact ih (fun a => (h a).mono (by omega) fun _ => Nat.le_refl _) (by omega) b

theorem sepBy {sep : Mark} {item : Reader α} (h : Finishes n anyKind item fun _ => 1)
    (enough : n < rounds) : Finishes n K (sepBy sep item rounds) fun _ => 1 := by
  induction rounds generalizing n K with
  | zero => nomatch enough
  | succ rounds ih =>
    refine bindMoving h.ofAny fun a m fewer => ?_
    refine bind acceptMark fun o => ?_
    cases o with
    | none => exact pure rfl
    | some _ =>
      exact bind (ih (h.mono (by omega) fun _ => Nat.le_refl _) (by omega)) fun _ => pure rfl

theorem upTo {closer : Mark} {item : Reader α} (h : Finishes n anyKind item fun _ => 1)
    (enough : n < rounds) : Finishes n K (upTo closer item rounds) fun _ => 0 := by
  refine many (atEnd_bind fun b => ?_) enough
  cases b with
  | true => exact pure rfl
  | false => exact bindMoving h fun _ _ _ => pure rfl

theorem commaList {closer : Mark} {item : Reader α} (h : Finishes n anyKind item fun _ => 1)
    (enough : n < rounds) : Finishes n K (commaList closer item rounds) fun _ => 0 := by
  induction rounds generalizing n K with
  | zero => nomatch enough
  | succ rounds ih =>
    refine atEnd_bind fun b => ?_
    cases b with
    | true => exact pure rfl
    | false =>
      refine bindMoving h.ofAny fun a m fewer => ?_
      refine bind acceptMark fun o => ?_
      cases o with
      | none => exact pure rfl
      | some _ =>
        exact bind (ih (h.mono (by omega) fun _ => Nat.le_refl _) (by omega)) fun _ => pure rfl

end Finishes

/-! ### Phrases

On the same token, phrases are read through each other in the order of their ranks only. -/

/-- A phrase is read through phrases of lower ranks without a step. -/
def Phrase.rank : Phrase → Nat
  | .type | .elements | .ifStmt => 0
  | .unary => 1
  | .binary _ => 2
  | .stmt => 3

theorem Phrase.rank_lt (p : Phrase) : p.rank < 4 := by cases p <;> simp [rank]

/-- With `n + 1` tokens left the readers can read all phrases of ranks below `r`, and with fewer all
phrases. Each phrase passes a token. -/
structure Readers.Able (g : Readers) (n r : Nat) : Prop where
  rounds : n < g.rounds
  read : ∀ p : Phrase, p.rank < r → Finishes n anyKind (g.read p) fun _ => 1
  later : ∀ m < n, ∀ p : Phrase, Finishes m anyKind (g.read p) fun _ => 1

namespace Readers.Able

variable {g : Readers} {m r : Nat}

/-- Behind a token, all phrases can be read. -/
theorem next (able : g.Able n r) (fewer : m + 1 = n) : g.Able m 4 where
  rounds := by have := able.rounds; omega
  read p _ := able.later m (by omega) p
  later m' lt := able.later m' (by omega)

section Ranked

variable (able : g.Able n r)

include able

theorem identList : Finishes n K g.identList fun _ => 1 := .sepBy .ident able.rounds

theorem skipSemis : Finishes n K (many (acceptMark .semi) g.rounds) fun _ => 0 :=
  .many .acceptMark able.rounds

end Ranked

variable (able : g.Able n 4)

include able

theorem type : Finishes n K g.type fun _ => 1 := (able.read .type (by decide)).ofAny

theorem expr : Finishes n K g.expr fun _ => 1 := (able.read (.binary 1) (by decide)).ofAny

theorem exprList : Finishes n K g.exprList fun _ => 1 := .sepBy able.expr able.rounds

end Readers.Able

variable {g : Readers} {r : Nat}

theorem skipSemis_finishes (able : g.Able n r) :
    Finishes n K (Readers.stmtList.skipSemis g) fun _ => 0 :=
  .bind able.skipSemis fun _ => .pure rfl

/-- A round of the statements of a block. -/
theorem stmt?_finishes (able : g.Able n 4) :
    Finishes n K (Readers.stmtList.stmt? g) ifSome := by
  refine .bind (skipSemis_finishes able) fun _ => .peek_bind fun k _ => ?_
  split
  · exact .pure rfl
  · exact .pure rfl
  · exact .pure rfl
  · exact .pure rfl
  · exact .bindMoving (able.read .stmt (by decide)).ofAny fun _ _ _ => .pure rfl

theorem stmtList_finishes (able : g.Able n 4) : Finishes n K g.stmtList fun _ => 0 :=
  .many (stmt?_finishes able) able.rounds

theorem block_finishes (able : g.Able n r) : Finishes n K g.block fun _ => 1 :=
  .bindMoving .expectMark fun _ _ fewer =>
    .bind (stmtList_finishes (able.next fewer)) fun _ => .bind .expectMark fun _ => .pure rfl

theorem body_finishes (able : g.Able n r) : Finishes n K g.body fun _ => 1 :=
  .enclosed (block_finishes able)

end GoLayout.Grammar
