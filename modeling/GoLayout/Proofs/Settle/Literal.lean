import GoLayout.Proofs.Order.Extent
import GoLayout.Proofs.Settle.Frame

/-!
How composite literals are laid out. The rule for a literal breaks lines only between its braces and
elements, so what it settles depends on no start within an element.
-/

namespace GoLayout

variable {n : Nat}

open LineTable (Agree Clean)
open Tidy (Inside)
open Landmark (InOrder)

/-! ### Extents in a row -/

/-- Extents one behind the other from `lo` to `hi`. -/
def Span.InRow (hi : Nat) : (lo : Nat) → List Span → Prop
  | lo, [] => lo ≤ hi
  | lo, s :: rest => lo ≤ s.start ∧ s.start ≤ s.stop ∧ InRow hi s.stop rest

/-- Within one of the extents. -/
def Span.AnyInside (spans : List Span) (x : Nat) : Prop := ∃ s ∈ spans, Inside s.start s.stop x

/-- From `lo` to `hi`, but within none of the extents. -/
def Span.Beside (hi lo : Nat) (spans : List Span) (x : Nat) : Prop :=
  lo ≤ x ∧ x ≤ hi ∧ ¬ Span.AnyInside spans x

/-- In front of one of the extents that is not empty, and behind those before it. -/
def Span.Ahead : (lo : Nat) → List Span → Nat → Prop
  | _, [], _ => False
  | lo, s :: rest, x => lo ≤ x ∧ x ≤ s.start ∧ s.start < s.stop ∨ Ahead s.stop rest x

namespace Span

variable {lo hi x : Nat} {s : Span} {spans : List Span}

theorem InRow.le (h : InRow hi lo spans) : lo ≤ hi := by
  induction spans generalizing lo with
  | nil => exact h
  | cons s rest ih =>
    obtain ⟨low, wide, behind⟩ := h
    exact Nat.le_trans low (Nat.le_trans wide (ih behind))

theorem InRow.between (h : InRow hi lo spans) : ∀ s ∈ spans, lo ≤ s.start ∧ s.stop ≤ hi := by
  induction spans generalizing lo with
  | nil => simp
  | cons s rest ih =>
    obtain ⟨low, wide, behind⟩ := h
    refine List.forall_mem_cons.mpr ⟨⟨low, behind.le⟩, fun s' mem => ?_⟩
    obtain ⟨low', high⟩ := ih behind s' mem
    exact ⟨by omega, high⟩

theorem InRow.wide (h : InRow hi lo spans) : ∀ s ∈ spans, s.start ≤ s.stop := by
  induction spans generalizing lo with
  | nil => simp
  | cons s rest ih => exact List.forall_mem_cons.mpr ⟨h.2.1, ih h.2.2⟩

theorem InRow.pairwise (h : InRow hi lo spans) : spans.Pairwise fun a b => a.stop ≤ b.start := by
  induction spans generalizing lo with
  | nil => exact .nil
  | cons s rest ih => exact .cons (fun s' mem => (h.2.2.between s' mem).1) (ih h.2.2)

theorem anyInside_append {spans' : List Span} :
    AnyInside (spans ++ spans') x ↔ AnyInside spans x ∨ AnyInside spans' x := by
  simp [AnyInside, or_and_right, exists_or]

theorem anyInside_cons : AnyInside (s :: spans) x ↔ Inside s.start s.stop x ∨ AnyInside spans x := by
  simp [AnyInside]

theorem InRow.beside_front (h : InRow hi lo (s :: spans)) (low : lo ≤ x) (high : x ≤ s.start) :
    Beside hi lo (s :: spans) x := by
  obtain ⟨-, wide, behind⟩ := h
  refine ⟨low, Nat.le_trans high (Nat.le_trans wide behind.le), ?_⟩
  rintro ⟨s', mem, within⟩
  have := within.1
  rcases List.mem_cons.mp mem with rfl | later
  · omega
  · have := (behind.between s' later).1
    omega

theorem InRow.beside_behind (h : InRow hi lo (s :: spans)) (beside : Beside hi s.stop spans x) :
    Beside hi lo (s :: spans) x := by
  obtain ⟨low, wide, -⟩ := h
  obtain ⟨low', high, outside⟩ := beside
  refine ⟨by omega, high, fun within => ?_⟩
  rcases anyInside_cons.mp within with here | later
  · have := here.2
    omega
  · exact outside later

theorem InRow.beside_stop (h : InRow hi lo (s :: spans)) : Beside hi lo (s :: spans) s.stop := by
  refine h.beside_behind ⟨Nat.le_refl _, h.2.2.le, ?_⟩
  rintro ⟨s', mem, within⟩
  have := within.1
  have := (h.2.2.between s' mem).1
  omega

theorem InRow.beside_stop_of_mem (h : InRow hi lo spans) :
    ∀ s ∈ spans, Beside hi lo spans s.stop := by
  induction spans generalizing lo with
  | nil => simp
  | cons s rest ih =>
    exact List.forall_mem_cons.mpr ⟨h.beside_stop, fun s' mem => h.beside_behind (ih h.2.2 s' mem)⟩

theorem InRow.beside_start_of_mem (h : InRow hi lo spans) :
    ∀ s ∈ spans, Beside hi lo spans s.start := by
  induction spans generalizing lo with
  | nil => simp
  | cons s rest ih =>
    exact List.forall_mem_cons.mpr ⟨h.beside_front h.1 (Nat.le_refl _),
      fun s' mem => h.beside_behind (ih h.2.2 s' mem)⟩

theorem InRow.beside_last (h : InRow hi lo spans) (last : s ∈ spans.getLast?) (low : s.stop ≤ x)
    (high : x ≤ hi) : Beside hi lo spans x := by
  induction spans generalizing lo with
  | nil => nomatch last
  | cons s' rest ih =>
    cases rest with
    | nil =>
      obtain rfl : s' = s := by simpa using last
      exact h.beside_behind ⟨low, high, by simp [AnyInside]⟩
    | cons s'' rest =>
      rw [List.getLast?_cons_cons] at last
      exact h.beside_behind (ih h.2.2 last)

theorem InRow.beside_of_ahead (h : InRow hi lo spans) (ahead : Ahead lo spans x) :
    Beside hi lo spans x := by
  induction spans generalizing lo with
  | nil => exact ahead.elim
  | cons s rest ih =>
    rcases ahead with ⟨low, high, -⟩ | later
    · exact h.beside_front low high
    · exact h.beside_behind (ih h.2.2 later)

theorem InRow.lt_of_ahead (h : InRow hi lo spans) (ahead : Ahead lo spans x) : x < hi := by
  induction spans generalizing lo with
  | nil => exact ahead.elim
  | cons s rest ih =>
    rcases ahead with ⟨-, high, wide⟩ | later
    · have := h.2.2.le
      omega
    · exact ih h.2.2 later

end Span

namespace LineTable

/-- The second table has further starts, at the offsets of `Z`. -/
structure Gains (n : Nat) (Z : Nat → Prop) (t t' : LineTable) : Prop where
  cover : t'.Over n
  kept : ∀ s ∈ t.starts, s ∈ t'.starts
  only : ∀ s ∈ t'.starts, s ∈ t.starts ∨ Z s

variable {Z Z' : Nat → Prop} {t t' t'' : LineTable} {a b : Nat}

theorem Gains.refl (h : t.Over n) : Gains n Z t t := ⟨h, fun _ mem => mem, fun _ => .inl⟩

theorem Gains.trans (first : Gains n Z t t') (second : Gains n Z t' t'') : Gains n Z t t'' where
  cover := second.cover
  kept := fun s mem => second.kept s (first.kept s mem)
  only := fun s mem => (second.only s mem).elim (first.only s) .inr

theorem Gains.mono (h : Gains n Z t t') (wider : ∀ s, Z s → Z' s) : Gains n Z' t t' :=
  ⟨h.cover, h.kept, fun s mem => (h.only s mem).imp_right (wider s)⟩

theorem Gains.agree (h : Gains n Z t t') : Agree (fun s => ¬ Z s) t t' :=
  fun s out => ⟨fun mem => (h.only s mem).resolve_right out, h.kept s⟩

theorem Gains.breaks (h : Gains n Z t t') (breaks : t.Breaks a b) : t'.Breaks a b := by
  obtain ⟨s, mem, within⟩ := breaks
  exact ⟨s, h.kept s mem, within⟩

/-- A break that is put in. -/
theorem insertBreak_gains {o : Nat} (h : t.Over n) (within : Z o) :
    Gives (insertBreak o) t fun _ t' => Gains n Z t t' ∧ o ∈ t'.starts := by
  refine (insertBreak_gives h).mono ?_
  rintro - t' ⟨rfl, cover⟩
  refine ⟨⟨cover, fun s mem => mem_insertStart.mpr (.inr mem), fun s mem => ?_⟩,
    mem_insertStart.mpr (.inl rfl)⟩
  rcases mem_insertStart.mp mem with rfl | old
  · exact .inr within
  · exact .inl old

end LineTable

/-! ### The layout of a literal -/

namespace Expr

/-- Each element starts on the line where the one before it ends, and there the closing brace
stands. The byte `last` comes before them. -/
def Unbroken (t : LineTable) (rbrace : Span) : (last : Nat) → List Expr → Prop
  | last, [] => t.line rbrace.start = t.line last
  | last, e :: rest => t.line e.pos = t.line last ∧ Unbroken t rbrace (e.stop - 1) rest

/-- The braces stand on lines of their own, and lines break around elements that are composite. -/
structure Spread (t : LineTable) (lbrace rbrace : Span) (elements : List Expr) : Prop where
  opens : ∀ first ∈ elements.head?, t.line lbrace.start < t.line first.pos
  closes : ∀ last ∈ elements.getLast?, t.line (last.stop - 1) < t.line rbrace.start
  apart : elements.IsChain fun a b =>
    (a.isComposite || b.isComposite) → t.line (a.stop - 1) < t.line b.pos

def LaidOut (t : LineTable) (lbrace rbrace : Span) (elements : List Expr) : Prop :=
  Unbroken t rbrace lbrace.start elements ∨ Spread t lbrace rbrace elements

/-- The extent of an expression. -/
def extentSpan (e : Expr) : Span := ⟨e.pos, e.stop⟩

/-! ### By the starts of lines -/

/-- No line starts from one element to the next one, nor from the offset `a` to the first one. -/
def Joined (t : LineTable) (close : Nat) : (a : Nat) → List Expr → Prop
  | a, [] => ¬ t.Breaks a close
  | a, e :: rest => ¬ t.Breaks a e.pos ∧ Joined t close e.stop rest

variable {t t' : LineTable} {close a : Nat} {es : List Expr}

theorem Joined.unbroken {rbrace : Span} (cover : t.Over n) (pos : 0 < a)
    (row : Span.InRow rbrace.start a (es.map extentSpan)) (placed : ∀ e ∈ es, e.pos < e.stop)
    (h : Joined t rbrace.start a es) : Unbroken t rbrace (a - 1) es := by
  induction es generalizing a with
  | nil => exact (cover.line_eq_pred_iff pos row).mpr h
  | cons e rest ih =>
    obtain ⟨low, -, behind⟩ := row
    obtain ⟨wide, placed⟩ := List.forall_mem_cons.mp placed
    refine ⟨(cover.line_eq_pred_iff pos low).mpr h.1, ih ?_ behind placed h.2⟩
    exact Nat.zero_lt_of_lt wide

theorem Joined.of_agree (row : Span.InRow close a (es.map extentSpan))
    (same : Agree (Span.Beside close a (es.map extentSpan)) t t') (h : Joined t close a es) :
    Joined t' close a es := by
  induction es generalizing a with
  | nil =>
    refine fun breaks => h ((same.breaks_iff fun s low high => ?_).mp breaks)
    exact ⟨low, high, by simp [Span.AnyInside]⟩
  | cons e rest ih =>
    refine ⟨fun breaks => h.1 ((same.breaks_iff fun s low high => ?_).mp breaks), ?_⟩
    · exact row.beside_front low high
    · exact ih row.2.2 (same.mono fun s => row.beside_behind) h.2

/-- On one line no element is broken off. -/
theorem joined_of_not_breaks (row : Span.InRow close a (es.map extentSpan))
    (h : ¬ t.Breaks a close) : Joined t close a es := by
  induction es generalizing a with
  | nil => exact h
  | cons e rest ih =>
    obtain ⟨low, wide, behind⟩ := row
    refine ⟨?_, ih behind ?_⟩
    · rintro ⟨s, mem, low', high⟩
      exact h ⟨s, mem, low', Nat.le_trans high (Nat.le_trans wide behind.le)⟩
    · rintro ⟨s, mem, low', high⟩
      exact h ⟨s, mem, by change e.stop ≤ s at low'; change a ≤ e.pos at low; change e.pos ≤ e.stop at wide; omega, high⟩

/-- The rule leaves alone the elements that are joined already. -/
theorem joined_of_breaks {p : Nat} (cover : t.Over n)
    (reach : ∀ b, t.Breaks a b → t.line p < t.line b) (clean : ∀ e ∈ es, e.stop ∉ t.starts)
    (whole : (breaks t (t.line p) es).2 = false)
    (ends : t.line close ≤ (breaks t (t.line p) es).1) : Joined t close a es := by
  induction es generalizing p a with
  | nil => exact fun breaks => Nat.not_lt.mpr ends (reach close breaks)
  | cons e rest ih =>
    obtain ⟨here, clean⟩ := List.forall_mem_cons.mp clean
    have whole : (decide (t.line p < t.line e.pos) || (breaks t (t.line e.stop) rest).2) = false :=
      whole
    obtain ⟨near, whole⟩ := Bool.or_eq_false_iff.mp whole
    refine ⟨fun breaks => of_decide_eq_false near (reach e.pos breaks), ih ?_ clean whole ends⟩
    rintro b ⟨s, mem, low, high⟩
    have other : s ≠ e.stop := fun same => here (same ▸ mem)
    exact cover.line_lt_iff.mpr ⟨s, mem, by omega, high⟩

/-! ### Breaking a literal -/

/-- Lines break around elements that are composite. -/
def Parted (t : LineTable) (es : List Expr) : Prop :=
  es.IsChain fun a b => (a.isComposite || b.isComposite) → t.Breaks a.stop b.pos

theorem Parted.of_gains {Z : Nat → Prop} (gains : t.Gains n Z t') (h : Parted t es) :
    Parted t' es := h.imp fun _ _ breaks composite => gains.breaks (breaks composite)

theorem breakComposites_gives (cover : t.Over n) (row : Span.InRow close a (es.map extentSpan)) :
    Gives (breakComposites es) t fun _ t' =>
      t.Gains n (Span.Beside close a (es.map extentSpan)) t' ∧ Parted t' es := by
  induction es generalizing t a with
  | nil => exact .pure ⟨.refl cover, .nil⟩
  | cons e rest ih =>
    cases rest with
    | nil => exact .pure ⟨.refl cover, .singleton e⟩
    | cons e' rest =>
      have behind {t : LineTable} (cover : t.Over n)
          (parted : (e.isComposite || e'.isComposite) → t.Breaks e.stop e'.pos) :
          Gives (breakComposites (e' :: rest)) t fun _ t' =>
            t.Gains n (Span.Beside close a ((e :: e' :: rest).map extentSpan)) t' ∧
              Parted t' (e :: e' :: rest) := by
        refine (ih cover row.2.2).mono fun _ t' ⟨gains, parted'⟩ => ?_
        exact ⟨gains.mono fun s => row.beside_behind,
          .cons_cons (fun composite => gains.breaks (parted composite)) parted'⟩
      refine .get_bind ?_
      dsimp only
      split
      · refine .bind (LineTable.insertBreak_gains cover row.beside_stop) fun _ t₁ ⟨gains, mem⟩ => ?_
        refine (behind gains.cover fun _ => ?_).mono fun _ t' ⟨gains', parted⟩ => ?_
        · exact ⟨_, mem, Nat.le_refl _, row.2.2.1⟩
        · exact ⟨gains.trans gains', parted⟩
      · rename_i apart
        refine behind cover fun composite => ?_
        have lines : t.line e.stop ≠ t.line e'.pos := fun same => apart (by simp [composite, same])
        obtain ⟨s, mem, low, high⟩ := cover.breaks_of_line_ne row.2.2.1 lines
        exact ⟨s, mem, Nat.le_of_succ_le low, high⟩

/-- The layout by the starts of lines: all elements are joined, or each break is there. -/
def Settled (t : LineTable) (lbrace rbrace : Span) (es : List Expr) : Prop :=
  Joined t rbrace.start (lbrace.start + 1) es ∨
    (∀ first ∈ es.head?, t.Breaks (lbrace.start + 1) first.pos) ∧
      (∀ last ∈ es.getLast?, t.Breaks last.stop rbrace.start) ∧ Parted t es

variable {lbrace rbrace : Span}

/-- The closing brace is put below the last element. -/
theorem closeBelow_gives {last : Expr} (cover : t.Over n)
    (row : Span.InRow rbrace.start (lbrace.start + 1) (es.map extentSpan)) (mem : last ∈ es) :
    Gives (do
      let lines ← get
      if lines.line rbrace.start == lines.line last.stop then LineTable.insertBreak last.stop) t
      fun _ t' => t.Gains n (Span.Beside rbrace.start (lbrace.start + 1) (es.map extentSpan)) t' ∧
        t'.Breaks last.stop rbrace.start := by
  have inRow : last.extentSpan ∈ es.map extentSpan := List.mem_map_of_mem mem
  have le : last.stop ≤ rbrace.start := (row.between _ inRow).2
  refine .get_bind ?_
  split
  · refine (LineTable.insertBreak_gains cover (row.beside_stop_of_mem _ inRow)).mono ?_
    exact fun _ t' ⟨gains, made⟩ => ⟨gains, _, made, Nat.le_refl _, le⟩
  · rename_i apart
    have lines : t.line last.stop ≠ t.line rbrace.start := fun same => apart (by simp [same])
    obtain ⟨s, mem, low, high⟩ := cover.breaks_of_line_ne le lines
    exact .pure ⟨.refl cover, s, mem, Nat.le_of_succ_le low, high⟩

/-- Below the opening brace, the elements and the closing brace are put on lines of their own. -/
theorem breakBelow_gives {first last : Expr} (cover : t.Over n)
    (row : Span.InRow rbrace.start (lbrace.start + 1) (es.map extentSpan))
    (isFirst : es.head? = some first) (isLast : es.getLast? = some last)
    (opens : t.Breaks (lbrace.start + 1) first.pos) :
    Gives (do
      breakComposites es
      let lines ← get
      if lines.line rbrace.start == lines.line last.stop then LineTable.insertBreak last.stop) t
      fun _ t' => t.Gains n (Span.Beside rbrace.start (lbrace.start + 1) (es.map extentSpan)) t' ∧
        Settled t' lbrace rbrace es := by
  refine .bind (breakComposites_gives cover row) fun _ t₁ ⟨gains, parted⟩ => ?_
  refine (closeBelow_gives gains.cover row (List.mem_of_getLast? isLast)).mono ?_
  intro _ t' ⟨gains', closes⟩
  refine ⟨gains.trans gains', .inr ⟨?_, ?_, parted.of_gains gains'⟩⟩
  · intro e isFirst'
    obtain rfl := Option.some.inj (isFirst.symm.trans isFirst')
    exact gains'.breaks (gains.breaks opens)
  · intro e isLast'
    obtain rfl := Option.some.inj (isLast.symm.trans isLast')
    exact closes

theorem spread_gives (cover : t.Over n)
    (row : Span.InRow rbrace.start (lbrace.start + 1) (es.map extentSpan))
    (clean : ∀ e ∈ es, e.stop ∉ t.starts) :
    Gives (spread lbrace rbrace es) t fun _ t' =>
      t.Gains n (Span.Beside rbrace.start (lbrace.start + 1) (es.map extentSpan)) t' ∧
        Settled t' lbrace rbrace es := by
  unfold spread
  split
  · rename_i first last isFirst isLast
    obtain ⟨rest, rfl⟩ := List.head?_eq_some_iff.mp isFirst
    refine .get_bind ?_
    dsimp only
    split
    · split
      · refine .bind (LineTable.insertBreak_gains cover
          (row.beside_front (Nat.le_refl _) row.1)) fun _ t₁ ⟨gains, mem⟩ => ?_
        have opens : t₁.Breaks (lbrace.start + 1) first.pos := ⟨_, mem, Nat.le_refl _, row.1⟩
        refine (breakBelow_gives gains.cover row isFirst isLast opens).mono ?_
        exact fun _ t' ⟨gains', settled⟩ => ⟨gains.trans gains', settled⟩
      · rename_i apart
        have lines : t.line lbrace.start ≠ t.line first.pos := fun same => apart (by simp [same])
        exact breakBelow_gives cover row isFirst isLast
          (cover.breaks_of_line_ne (Nat.le_of_succ_le row.1) lines)
    · rename_i unbroken
      refine .pure ⟨.refl cover, .inl ?_⟩
      have le : lbrace.start ≤ rbrace.start := Nat.le_of_succ_le row.le
      by_cases oneLine : t.line lbrace.start = t.line rbrace.start
      · exact joined_of_not_breaks row ((cover.line_eq_iff le).mp oneLine.symm)
      · simp only [bne_iff_ne, ne_eq, oneLine, not_false_eq_true, Bool.and_eq_true, true_and,
          Bool.or_eq_true, decide_eq_true_eq, not_or, Bool.not_eq_true, Nat.not_lt] at unbroken
        exact joined_of_breaks cover (fun b => cover.line_lt_iff.mpr) clean unbroken.1 unbroken.2
  · rename_i noEnds
    have none : es = [] := by
      cases es with
      | nil => rfl
      | cons e rest =>
        exact (noEnds e _ rfl (List.getLast?_eq_some_getLast (List.cons_ne_nil e rest))).elim
    rw [none]
    exact .pure ⟨.refl cover, .inr ⟨by simp, by simp, .nil⟩⟩

theorem Parted.of_agree (row : Span.InRow close a (es.map extentSpan))
    (same : Agree (Span.Beside close a (es.map extentSpan)) t t') (h : Parted t es) :
    Parted t' es := by
  induction es generalizing a with
  | nil => exact .nil
  | cons e rest ih =>
    cases rest with
    | nil => exact .singleton e
    | cons e' rest =>
      obtain ⟨here, behind⟩ := List.isChain_cons_cons.mp h
      refine .cons_cons (fun composite => (same.breaks_iff fun s low high => ?_).mpr (here composite))
        (ih row.2.2 (same.mono fun s => row.beside_behind) behind)
      exact row.beside_behind (row.2.2.beside_front low high)

theorem Settled.of_agree (row : Span.InRow rbrace.start (lbrace.start + 1) (es.map extentSpan))
    (same : Agree (Span.Beside rbrace.start (lbrace.start + 1) (es.map extentSpan)) t t')
    (h : Settled t lbrace rbrace es) : Settled t' lbrace rbrace es := by
  refine h.imp (Joined.of_agree row same) ?_
  rintro ⟨opens, closes, parted⟩
  refine ⟨fun first isFirst => ?_, fun last isLast => ?_, parted.of_agree row same⟩
  · obtain ⟨rest, rfl⟩ := List.head?_eq_some_iff.mp isFirst
    exact (same.breaks_iff fun s => row.beside_front).mpr (opens first isFirst)
  · have last' : last.extentSpan ∈ (es.map extentSpan).getLast? := by
      rw [List.getLast?_map, Option.mem_def.mp isLast]
      rfl
    exact (same.breaks_iff fun s => row.beside_last last').mpr (closes last isLast)

theorem Settled.laidOut (cover : t.Over n)
    (row : Span.InRow rbrace.start (lbrace.start + 1) (es.map extentSpan))
    (wide : ∀ e ∈ es, e.pos < e.stop) (h : Settled t lbrace rbrace es) :
    LaidOut t lbrace rbrace es := by
  have pos : ∀ e ∈ es, 0 < e.stop := fun e mem => Nat.zero_lt_of_lt (wide e mem)
  refine h.imp (Joined.unbroken cover (Nat.succ_pos _) row wide) ?_
  rintro ⟨opens, closes, parted⟩
  refine ⟨fun first isFirst => cover.line_lt_iff.mpr (opens first isFirst), fun last isLast => ?_, ?_⟩
  · exact (cover.line_pred_lt_iff (pos last (List.mem_of_getLast? isLast))).mpr (closes last isLast)
  · refine List.IsChain.imp_of_mem_imp ?_ parted
    intro e e' mem _ breaks composite
    exact (cover.line_pred_lt_iff (pos e mem)).mpr (breaks composite)

/-! ### Elements that take the same places -/

/-- Where an element stands, and whether it is composite. -/
def place (e : Expr) : Nat × Nat × Bool := (e.pos, e.stop, e.isComposite)

theorem Unbroken.of_places {es' : List Expr} {last : Nat} (same : es'.map place = es.map place)
    (h : Unbroken t rbrace last es) : Unbroken t rbrace last es' := by
  induction es generalizing es' last with
  | nil => rwa [List.map_eq_nil_iff.mp same]
  | cons e rest ih =>
    obtain ⟨e', rest', rfl, here, behind⟩ := List.map_eq_cons_iff.mp same
    obtain ⟨pos, places⟩ := Prod.mk.inj here
    obtain ⟨stop, -⟩ := Prod.mk.inj places
    refine ⟨?_, ?_⟩
    · rw [pos]
      exact h.1
    · rw [stop]
      exact ih behind h.2

theorem Spread.of_places {es' : List Expr} (same : es'.map place = es.map place)
    (h : Spread t lbrace rbrace es) : Spread t lbrace rbrace es' where
  opens := by
    intro first' isFirst'
    have placed : (es.map place).head? = some first'.place := by
      rw [← same, List.head?_map, Option.mem_def.mp isFirst']
      rfl
    rw [List.head?_map] at placed
    obtain ⟨first, isFirst, alike⟩ := Option.map_eq_some_iff.mp placed
    have pos : first.pos = first'.pos := congrArg Prod.fst alike
    exact pos ▸ h.opens first isFirst
  closes := by
    intro last' isLast'
    have placed : (es.map place).getLast? = some last'.place := by
      rw [← same, List.getLast?_map, Option.mem_def.mp isLast']
      rfl
    rw [List.getLast?_map] at placed
    obtain ⟨last, isLast, alike⟩ := Option.map_eq_some_iff.mp placed
    have stop : last.stop = last'.stop := congrArg (·.2.1) alike
    exact stop ▸ h.closes last isLast
  apart := by
    let Apart (a b : Nat × Nat × Bool) : Prop :=
      (a.2.2 || b.2.2) → t.line (a.2.1 - 1) < t.line b.1
    have chain : (es.map place).IsChain Apart := (List.isChain_map place).mpr h.apart
    rw [← same] at chain
    exact (List.isChain_map place).mp chain

theorem LaidOut.of_places {es' : List Expr} (same : es'.map place = es.map place)
    (h : LaidOut t lbrace rbrace es) : LaidOut t lbrace rbrace es' :=
  h.imp (Unbroken.of_places same) (Spread.of_places same)

end Expr

end GoLayout
