import GoLayout.LineTable

/-!
Edits of the line table that cannot fail. A table whose first line starts at offset zero has a
line for every offset, so joining the lines of two offsets stays within the table, and a line can
be broken at every offset up to the size of the text. The edits keep the first start, the order of
the starts and the size.
-/

namespace GoLayout

/-- The span of a token that begins and ends within the first `n` bytes. -/
def Span.Within (n : Nat) (s : Span) : Prop := s.start < n ∧ s.stop ≤ n

theorem Span.within_point {n pos : Nat} (h : pos < n) : (Span.point pos).Within n :=
  ⟨h, Nat.le_of_lt h⟩

variable {α β σ : Type} {n : Nat} {t : LineTable}

/-- The edit succeeds from `s`, and its result and the state it leaves are as told. -/
def Yields (x : EStateM LineError σ α) (s : σ) (Q : α → σ → Prop) : Prop :=
  ∃ a s', x s = .ok a s' ∧ Q a s'

namespace Yields

variable {s : σ} {x : EStateM LineError σ α} {Q : α → σ → Prop} {R : β → σ → Prop}

theorem pure {a : α} (h : Q a s) : Yields (Pure.pure a : EStateM LineError σ α) s Q :=
  ⟨a, s, rfl, h⟩

theorem bind {f : α → EStateM LineError σ β} (first : Yields x s Q)
    (next : ∀ a s', Q a s' → Yields (f a) s' R) : Yields (x >>= f) s R := by
  obtain ⟨a, s', run, holds⟩ := first
  obtain ⟨b, s'', run', holds'⟩ := next a s' holds
  refine ⟨b, s'', ?_, holds'⟩
  change (EStateM.bind x f) s = _
  simp only [EStateM.bind, run, run']

/-- Reading hands on the state at hand. -/
theorem get_bind {f : σ → EStateM LineError σ β} (h : Yields (f s) s R) :
    Yields (get >>= f) s R := by
  obtain ⟨b, s', run, holds⟩ := h
  exact ⟨b, s', run, holds⟩

theorem set_bind {s' : σ} {f : PUnit → EStateM LineError σ β} (h : Yields (f ⟨⟩) s' R) :
    Yields (set s' >>= f) s R := by
  obtain ⟨b, s'', run, holds⟩ := h
  exact ⟨b, s'', run, holds⟩

theorem modify_bind {g : σ → σ} {f : PUnit → EStateM LineError σ β} (h : Yields (f ⟨⟩) (g s) R) :
    Yields (modify g >>= f) s R := by
  obtain ⟨b, s', run, holds⟩ := h
  exact ⟨b, s', run, holds⟩

theorem mono {Q' : α → σ → Prop} (h : Yields x s Q) (weaker : ∀ a s', Q a s' → Q' a s') :
    Yields x s Q' := by
  obtain ⟨a, s', run, holds⟩ := h
  exact ⟨a, s', run, weaker a s' holds⟩

end Yields

/-- Where the edit succeeds from `s`, its result and the state it leaves are as told. -/
def Gives (x : EStateM LineError σ α) (s : σ) (Q : α → σ → Prop) : Prop :=
  ∀ a s', x s = .ok a s' → Q a s'

namespace Gives

variable {s : σ} {x : EStateM LineError σ α} {Q : α → σ → Prop} {R : β → σ → Prop}

theorem pure {a : α} (h : Q a s) : Gives (Pure.pure a : EStateM LineError σ α) s Q := by
  rintro _ _ ⟨⟩
  exact h

theorem bind {f : α → EStateM LineError σ β} (first : Gives x s Q)
    (next : ∀ a s', Q a s' → Gives (f a) s' R) : Gives (x >>= f) s R := by
  intro b s'' run
  change EStateM.bind x f s = _ at run
  unfold EStateM.bind at run
  split at run
  · rename_i a s' done
    exact next a s' (first a s' done) b s'' run
  · nomatch run

theorem get_bind {f : σ → EStateM LineError σ β} (h : Gives (f s) s R) :
    Gives (get >>= f) s R := h

theorem any : Gives x s fun _ _ => True := fun _ _ _ => trivial

theorem of_yields (h : Yields x s Q) : Gives x s Q := by
  intro a s' run
  obtain ⟨b, s'', run', holds⟩ := h
  rw [run] at run'
  cases run'
  exact holds

theorem mono {Q' : α → σ → Prop} (h : Gives x s Q) (weaker : ∀ a s', Q a s' → Q' a s') :
    Gives x s Q' := fun a s' run => weaker a s' (h a s' run)

theorem and {Q' : α → σ → Prop} (left : Gives x s Q) (right : Gives x s Q') :
    Gives x s fun a s' => Q a s' ∧ Q' a s' :=
  fun a s' run => ⟨left a s' run, right a s' run⟩

end Gives

namespace LineTable

/-- A table for a text of `n` bytes: its lines start within it, one behind the other, and the first
one at offset zero. -/
structure Over (n : Nat) (t : LineTable) : Prop where
  rooted : t.starts.head? = some 0
  increasing : t.starts.Pairwise (· < ·)
  within : ∀ s ∈ t.starts, s ≤ n
  size : t.size = n

theorem lt_of_mem_afterNewlines {pos s : Nat} {cs : List Char} (mem : s ∈ afterNewlines pos cs) :
    pos < s := by
  induction cs generalizing pos with
  | nil => simp [afterNewlines] at mem
  | cons c cs ih =>
    have size : 0 < c.utf8Size := c.utf8Size_pos
    have later : s ∈ afterNewlines (pos + c.utf8Size) cs → pos < s := by
      intro mem
      have := ih mem
      omega
    simp only [afterNewlines] at mem
    split at mem
    · rcases List.mem_cons.mp mem with rfl | mem
      · omega
      · exact later mem
    · exact later mem

theorem increasing_afterNewlines (pos : Nat) (cs : List Char) :
    (afterNewlines pos cs).Pairwise (· < ·) := by
  induction cs generalizing pos with
  | nil => exact .nil
  | cons c cs ih =>
    simp only [afterNewlines]
    split
    · exact .cons (fun _ mem => lt_of_mem_afterNewlines mem) (ih _)
    · exact ih _

theorem over_ofSource (src : String) : (ofSource src).Over src.utf8ByteSize where
  rooted := rfl
  increasing := by
    refine .cons ?_ ((increasing_afterNewlines 0 _).filter _)
    intro s mem
    exact lt_of_mem_afterNewlines (List.mem_filter.mp mem).1
  within := by
    intro s mem
    rcases List.mem_cons.mp mem with rfl | mem
    · exact Nat.zero_le _
    · exact Nat.le_of_lt (of_decide_eq_true (List.mem_filter.mp mem).2)
  size := rfl

theorem line_le_count (t : LineTable) (offset : Nat) : t.line offset ≤ t.count :=
  (List.takeWhile_prefix _).length_le

theorem line_pos (h : t.Over n) (offset : Nat) : 0 < t.line offset := by
  obtain ⟨starts, size⟩ := t
  have rooted := h.rooted
  cases starts with
  | nil => simp at rooted
  | cons first rest =>
    simp only [List.head?_cons, Option.some.injEq] at rooted
    simp [line, rooted]

/-! ### Edits -/

theorem mergeLine_yields {line : Nat} (h : t.Over n) (pos : 0 < line) (below : line < t.count) :
    Yields (mergeLine line) t fun _ t' => t'.Over n ∧ t'.count + 1 = t.count := by
  have fits : ¬(line = 0 || t.count ≤ line) = true := by simp; omega
  have fewer : (t.starts.eraseIdx line).Sublist t.starts := List.eraseIdx_sublist ..
  refine ⟨(), { t with starts := t.starts.eraseIdx line }, ?_, ⟨?_, h.increasing.sublist fewer,
    fun s mem => h.within s (fewer.subset mem), h.size⟩, ?_⟩
  · change (if (line = 0 || t.count ≤ line) = true then _ else _ : LineEdit) t = _
    rw [if_neg fits]
    rfl
  · have rooted := h.rooted
    obtain ⟨k, rfl⟩ : ∃ k, line = k + 1 := ⟨line - 1, by omega⟩
    cases starts : t.starts with
    | nil => simp [starts] at rooted
    | cons first rest => simpa [starts] using rooted
  · simp only [count, List.length_eraseIdx]
    simp only [count] at below
    rw [if_pos below]
    omega

theorem mergeLines_yields {line times : Nat} (h : t.Over n) (pos : 0 < line)
    (fits : times = 0 ∨ line + times ≤ t.count) :
    Yields (mergeLines line times) t fun _ t' => t'.Over n := by
  induction times generalizing t with
  | zero => exact .pure h
  | succ k ih =>
    refine .bind (mergeLine_yields h pos (by omega)) ?_
    rintro - t' ⟨cover, fewer⟩
    exact ih cover (by omega)

/-- Lines up to one of the table can be joined. -/
theorem removeLines_yields {first last : Nat} (h : t.Over n) (pos : 0 < first)
    (within : last ≤ t.count) : Yields (removeLines first last) t fun _ t' => t'.Over n :=
  mergeLines_yields h pos (by omega)

/-- The lines of two offsets can be joined. -/
theorem removeLines_line_yields (h : t.Over n) (a b : Nat) :
    Yields (removeLines (t.line a) (t.line b)) t fun _ t' => t'.Over n :=
  removeLines_yields h (t.line_pos h a) (t.line_le_count b)

theorem removeBetween_yields (h : t.Over n) (a b : Nat) :
    Yields (removeBetween a b) t fun _ t' => t'.Over n :=
  .get_bind (removeLines_yields h (Nat.succ_pos _) (t.line_le_count b))

theorem head?_insertStart {offset : Nat} {starts : List Nat} (h : starts.head? = some 0) :
    (insertStart offset starts).head? = some 0 := by
  cases starts with
  | nil => simp at h
  | cons first rest =>
    obtain rfl : first = 0 := by simpa using h
    simp only [insertStart, Nat.not_lt_zero, if_false]
    split <;> rfl

theorem mem_insertStart {o s : Nat} {starts : List Nat} :
    s ∈ insertStart o starts ↔ s = o ∨ s ∈ starts := by
  induction starts with
  | nil => simp [insertStart]
  | cons a rest ih =>
    simp only [insertStart]
    split
    · simp
    · split
      · rename_i same
        simp [same]
      · simp only [List.mem_cons, ih]
        exact or_left_comm

theorem increasing_insertStart {o : Nat} {starts : List Nat} (h : starts.Pairwise (· < ·)) :
    (insertStart o starts).Pairwise (· < ·) := by
  induction starts with
  | nil => exact List.pairwise_singleton _ _
  | cons a rest ih =>
    obtain ⟨below, h⟩ := List.pairwise_cons.mp h
    simp only [insertStart]
    split
    · rename_i less
      refine .cons ?_ (.cons below h)
      intro s mem
      rcases List.mem_cons.mp mem with rfl | mem
      · exact less
      · exact Nat.lt_trans less (below s mem)
    · split
      · exact .cons below h
      · refine .cons ?_ (ih h)
        intro s mem
        rcases mem_insertStart.mp mem with rfl | mem
        · omega
        · exact below s mem

theorem insertBreak_yields {offset : Nat} (h : t.Over n) (within : offset ≤ n) :
    Yields (insertBreak offset) t fun _ t' => t'.Over n := by
  have fits : ¬t.size < offset := by rw [h.size]; omega
  refine ⟨(), { t with starts := insertStart offset t.starts }, ?_,
    ⟨head?_insertStart h.rooted, increasing_insertStart h.increasing, fun s mem => ?_, h.size⟩⟩
  · change (if t.size < offset then _ else _ : LineEdit) t = _
    rw [if_neg fits]
    rfl
  · rcases mem_insertStart.mp mem with rfl | old
    · exact within
    · exact h.within s old

end LineTable

/-- The computation succeeds on every table over `n` bytes and leaves such a table. -/
def Relining.Safe (n : Nat) (x : Relining α) (Q : α → Prop) : Prop :=
  ∀ t, t.Over n → Yields x t fun a t' => Q a ∧ t'.Over n

namespace Relining.Safe

theorem pure {a : α} {Q : α → Prop} (h : Q a) : Relining.Safe n (Pure.pure a) Q :=
  fun _ cover => .pure ⟨h, cover⟩

theorem bind {x : Relining α} {f : α → Relining β} {Q : α → Prop} {R : β → Prop}
    (first : x.Safe n Q) (next : ∀ a, Q a → (f a).Safe n R) : (x >>= f).Safe n R :=
  fun t cover => .bind (first t cover) fun a t' ⟨holds, cover'⟩ => next a holds t' cover'

theorem mono {x : Relining α} {Q R : α → Prop} (h : x.Safe n Q) (weaker : ∀ a, Q a → R a) :
    x.Safe n R := fun t cover => (h t cover).mono fun a _ ⟨holds, cover'⟩ => ⟨weaker a holds, cover'⟩

theorem map {x : Relining α} {f : α → β} {R : β → Prop} (h : x.Safe n fun a => R (f a)) :
    Relining.Safe n (f <$> x) R := by
  intro t cover
  obtain ⟨a, t', run, holds⟩ := h t cover
  refine ⟨f a, t', ?_, holds⟩
  change EStateM.map f x t = _
  simp only [EStateM.map, run]

/-- Reading the table hands on a table over the same bytes. -/
theorem get_bind {f : LineTable → Relining β} {R : β → Prop}
    (next : ∀ t, t.Over n → Yields (f t) t fun b t' => R b ∧ t'.Over n) :
    (get >>= f).Safe n R := fun t cover => .get_bind (next t cover)

/-- The same, where it does not matter which table that is. -/
theorem look_bind {f : LineTable → Relining β} {R : β → Prop} (next : ∀ t, (f t).Safe n R) :
    (get >>= f).Safe n R := fun t cover => .get_bind (next t t cover)

theorem of_yields {x : LineEdit} (h : ∀ t, t.Over n → Yields x t fun _ t' => t'.Over n) :
    x.Safe n fun _ => True := fun t cover => (h t cover).mono fun _ _ cover' => ⟨trivial, cover'⟩

/-- What holds of a result wherever there is one is added to what is known of it. -/
theorem and_gives {x : Relining α} {Q R : α → Prop} (h : x.Safe n Q)
    (more : ∀ t, t.Over n → Gives x t fun a _ => R a) : x.Safe n fun a => Q a ∧ R a := by
  intro t cover
  obtain ⟨a, t', run, holds, cover'⟩ := h t cover
  exact ⟨a, t', run, ⟨holds, more t cover a t' run⟩, cover'⟩

end Relining.Safe

end GoLayout
