import GoLayout.Proofs.LineTable.History
import GoLayout.Proofs.Order.Landmark
import GoLayout.Tidy.Nodes

/-!
Edits of the line table that keep to some offsets. `Settles n O Z x Q` says: over tables of `n`
bytes whose starts at the offsets of `Z` are as `O` says, `x` changes starts at these offsets only,
and what it returns is as `Q` says in every table that has the same starts there. What one part of a
tree settles is so not unsettled by the parts beside it.
-/

namespace GoLayout

variable {n : Nat}

namespace LineTable

variable {t t' t'' : LineTable} {Z Z' : Nat → Prop} {a b p q : Nat}

/-! ### Starts and lines -/

/-- Some line starts from `a` to `b`. -/
def Breaks (t : LineTable) (a b : Nat) : Prop := ∃ s ∈ t.starts, a ≤ s ∧ s ≤ b

/-- From `a` to `b` no two lines start. -/
def BreaksOnce (t : LineTable) (a b : Nat) : Prop :=
  ∀ s ∈ t.starts, ∀ s' ∈ t.starts, a ≤ s → s ≤ b → a ≤ s' → s' ≤ b → s = s'

theorem Over.line_lt_iff (h : t.Over n) : t.line p < t.line q ↔ t.Breaks (p + 1) q := by
  constructor
  · intro lt
    by_contra none
    have inside : t.starts.countP (· ≤ q) ≤ t.starts.countP (· ≤ p) := by
      refine List.countP_mono_left fun s mem low => ?_
      simp only [decide_eq_true_eq] at low ⊢
      by_contra above
      exact none ⟨s, mem, by omega, low⟩
    rw [h.ordered.line_eq_countP, h.ordered.line_eq_countP] at lt
    omega
  · rintro ⟨s, mem, low, high⟩
    exact h.ordered.line_lt mem low high

/-- Behind the byte before `a`. -/
theorem Over.line_pred_lt_iff (h : t.Over n) (pos : 0 < a) :
    t.line (a - 1) < t.line b ↔ t.Breaks a b := by
  rw [h.line_lt_iff, Nat.sub_add_cancel pos]

theorem Over.line_eq_iff (h : t.Over n) (le : p ≤ q) :
    t.line q = t.line p ↔ ¬ t.Breaks (p + 1) q := by
  rw [← h.line_lt_iff]
  have := h.ordered.line_mono le
  omega

/-- Two offsets on different lines have a break between them. -/
theorem Over.breaks_of_line_ne (h : t.Over n) (le : p ≤ q) (ne : t.line p ≠ t.line q) :
    t.Breaks (p + 1) q :=
  by_contra fun none => ne ((h.line_eq_iff le).mpr none).symm

theorem Over.line_eq_pred_iff (h : t.Over n) (pos : 0 < a) (le : a ≤ b) :
    t.line b = t.line (a - 1) ↔ ¬ t.Breaks a b := by
  rw [h.line_eq_iff (by omega), Nat.sub_add_cancel pos]

theorem Over.line_le_succ (h : t.Over n) (once : t.BreaksOnce (p + 1) q) :
    t.line q ≤ t.line p + 1 := by
  rcases Nat.le_total q p with le | le
  · exact Nat.le_succ_of_le (h.ordered.line_mono le)
  · obtain ⟨before, inside, behind, starts, upTo, between, -, middle, -⟩ :=
      h.ordered.cut_between le
    have short : inside.length ≤ 1 := by
      match inside with
      | [] => exact Nat.zero_le 1
      | [_] => exact Nat.le_refl 1
      | s :: s' :: rest =>
        have grows := h.increasing
        rw [starts] at grows
        have lt : s < s' := (List.pairwise_cons.mp (List.pairwise_append.mp
          (List.pairwise_append.mp grows).2.1).1).1 s' List.mem_cons_self
        have low := middle s (by simp)
        have high := middle s' (by simp)
        have same := once s (by simp [starts]) s' (by simp [starts]) (by omega) (by omega)
          (by omega) (by omega)
        omega
    omega

/-- At most one line starts behind the byte before `a`. -/
theorem Over.line_le_pred_succ (h : t.Over n) (pos : 0 < a) (once : t.BreaksOnce a b) :
    t.line b ≤ t.line (a - 1) + 1 :=
  h.line_le_succ (by rwa [Nat.sub_add_cancel pos])

/-! ### Tables that agree -/

/-- The tables have the same starts at the offsets of `Z`. -/
def Agree (Z : Nat → Prop) (t t' : LineTable) : Prop := ∀ s, Z s → (s ∈ t'.starts ↔ s ∈ t.starts)

theorem Agree.refl (t : LineTable) : Agree Z t t := fun _ _ => Iff.rfl

theorem Agree.trans (first : Agree Z t t') (second : Agree Z t' t'') : Agree Z t t'' :=
  fun s mem => (second s mem).trans (first s mem)

theorem Agree.mono (h : Agree Z t t') (fewer : ∀ s, Z' s → Z s) : Agree Z' t t' :=
  fun s mem => h s (fewer s mem)

theorem Agree.breaks_iff (h : Agree Z t t') (within : ∀ s, a ≤ s → s ≤ b → Z s) :
    t'.Breaks a b ↔ t.Breaks a b := by
  constructor
  · rintro ⟨s, mem, low, high⟩
    exact ⟨s, (h s (within s low high)).mp mem, low, high⟩
  · rintro ⟨s, mem, low, high⟩
    exact ⟨s, (h s (within s low high)).mpr mem, low, high⟩

theorem Agree.breaksOnce (h : Agree Z t t') (within : ∀ s, a ≤ s → s ≤ b → Z s)
    (once : t.BreaksOnce a b) : t'.BreaksOnce a b := by
  intro s mem s' mem' low high low' high'
  exact once s ((h s (within s low high)).mp mem) s' ((h s' (within s' low' high')).mp mem') low
    high low' high'

/-- The starts at the offsets of `Z` are as `O` says. -/
def Clean (O Z : Nat → Prop) (t : LineTable) : Prop := ∀ s ∈ t.starts, Z s → O s

variable {O : Nat → Prop}

theorem Clean.mono (h : Clean O Z t) (fewer : ∀ s, Z' s → Z s) : Clean O Z' t :=
  fun s mem within => h s mem (fewer s within)

theorem Clean.of_agree (h : Clean O Z t) (same : Agree Z t t') : Clean O Z t' :=
  fun s mem within => h s ((same s within).mp mem) within

theorem Clean.of_subset (h : Clean O Z t) (fewer : ∀ s ∈ t'.starts, s ∈ t.starts) :
    Clean O Z t' := fun s mem within => h s (fewer s mem) within

end LineTable

open LineTable (Agree Clean)
open Landmark (InOrder)

namespace Tidy

variable {α β : Type} {O Z Z' : Nat → Prop}

def Settles (n : Nat) (O Z : Nat → Prop) (x : Tidying α) (Q : α → LineTable → Prop) : Prop :=
  ∀ depth t, t.Over n → t.Clean O Z → Gives (x.run depth) t fun r t' =>
    t'.Over n ∧ Agree (fun s => ¬ Z s) t t' ∧ ∀ t'', t''.Over n → Agree Z t' t'' → Q r.1 t''

/-- An edit of the table leaves the depth alone. -/
theorem gives_lift {x : Relining α} {t : LineTable} {Q : α → LineTable → Prop} (h : Gives x t Q)
    (depth : Nat) : Gives ((liftM x : Tidying α).run depth) t fun r t' => Q r.1 t' :=
  .bind h fun _ _ holds => .pure holds

namespace Settles

variable {x : Tidying α} {Q : α → LineTable → Prop} {R : β → LineTable → Prop}

theorem pure {a : α} (h : ∀ t, t.Over n → Q a t) : Settles n O Z (Pure.pure a) Q :=
  fun _ t cover _ => .pure ⟨cover, .refl t, fun t'' cover'' _ => h t'' cover''⟩

theorem mono {Q' : α → LineTable → Prop} (h : Settles n O Z x Q) (wider : ∀ s, Z s → Z' s)
    (weaker : ∀ a t, t.Over n → Q a t → Q' a t) : Settles n O Z' x Q' := by
  intro depth t cover clean
  refine (h depth t cover (clean.mono wider)).mono fun r t' ⟨cover', kept, settled⟩ => ?_
  refine ⟨cover', kept.mono fun s out within => out (wider s within), fun t'' cover'' same => ?_⟩
  exact weaker r.1 t'' cover'' (settled t'' cover'' (same.mono wider))

theorem widen (h : Settles n O Z x Q) (wider : ∀ s, Z s → Z' s) : Settles n O Z' x Q :=
  h.mono wider fun _ _ _ holds => holds

theorem imp {Q' : α → LineTable → Prop} (h : Settles n O Z x Q)
    (weaker : ∀ a t, t.Over n → Q a t → Q' a t) : Settles n O Z x Q' :=
  h.mono (fun _ within => within) weaker

/-- Of two steps that keep to different offsets the second one leaves settled what the first one
settles. -/
theorem bind {f : α → Tidying β} (first : Settles n O Z x Q) (apart : ∀ s, Z s → ¬ Z' s)
    (next : ∀ a, (∃ t, Q a t) → Settles n O Z' (f a) fun b t => Q a t → R b t) :
    Settles n O (fun s => Z s ∨ Z' s) (x >>= f) R := by
  intro depth t cover clean
  refine .bind (first depth t cover (clean.mono fun _ => .inl)) ?_
  rintro ⟨a, depth'⟩ t₁ ⟨cover₁, kept₁, settled₁⟩
  have clean₁ : t₁.Clean O Z' := (clean.mono fun _ => .inr).of_agree
    (kept₁.mono fun s within within' => apart s within' within)
  have known : ∃ t, Q a t := ⟨t₁, settled₁ t₁ cover₁ (.refl t₁)⟩
  refine (next a known depth' t₁ cover₁ clean₁).mono fun r t₂ ⟨cover₂, kept₂, settled₂⟩ => ?_
  refine ⟨cover₂, ?_, fun t'' cover'' same => ?_⟩
  · exact (kept₁.mono fun s out within => out (.inl within)).trans
      (kept₂.mono fun s out within => out (.inr within))
  · refine settled₂ t'' cover'' (same.mono fun _ => .inr) (settled₁ t'' cover'' ?_)
    exact (kept₂.mono fun s within => apart s within).trans (same.mono fun _ => .inl)

/-- What is known before a step is handed on. -/
theorem pure_bind {a : α} {f : α → Tidying β} (h : Settles n O Z (f a) R) :
    Settles n O Z (Pure.pure a >>= f) R := h

theorem assoc {γ : Type} {f : α → Tidying β} {g : β → Tidying γ} {R : γ → LineTable → Prop}
    (h : Settles n O Z (x >>= fun a => f a >>= g) R) : Settles n O Z ((x >>= f) >>= g) R := by
  rwa [bind_assoc]

/-- A step that changes nothing. -/
theorem quiet_bind {f : α → Tidying β} (quiet : Settles n O (fun _ => False) x Q)
    (next : ∀ a, (∃ t, Q a t) → Settles n O Z (f a) fun b t => Q a t → R b t) :
    Settles n O Z (x >>= f) R :=
  (bind quiet (fun _ none => none.elim) next).widen fun _ within => within.resolve_left id

/-- A step behind which nothing changes. -/
theorem bind_quiet {f : α → Tidying β} (h : Settles n O Z x Q)
    (next : ∀ a, Settles n O (fun _ => False) (f a) fun b t => Q a t → R b t) :
    Settles n O Z (x >>= f) R :=
  (bind h (fun _ _ none => none) fun a _ => next a).widen fun _ within => within.resolve_right id

/-- The last step of several. -/
theorem last {f : α → Tidying β} (h : Settles n O Z x Q)
    (done : ∀ a, ∃ b, f a = Pure.pure b ∧ ∀ t, t.Over n → Q a t → R b t) :
    Settles n O Z (x >>= f) R := by
  refine h.bind_quiet fun a => ?_
  obtain ⟨b, isPure, holds⟩ := done a
  rw [isPure]
  exact .pure holds

theorem depth_bind {f : Nat → Tidying β} (h : ∀ depth, Settles n O Z (f depth) R) :
    Settles n O Z (get >>= f) R := fun depth => h depth depth

theorem modify_bind {g : Nat → Nat} {f : PUnit → Tidying β} (h : Settles n O Z (f ⟨⟩) R) :
    Settles n O Z (modify g >>= f) R := fun depth => h (g depth)

/-- An edit of the table alone. -/
theorem lift {x : Relining α} (h : ∀ t, t.Over n → t.Clean O Z → Gives x t fun a t' =>
    t'.Over n ∧ Agree (fun s => ¬ Z s) t t' ∧ ∀ t'', t''.Over n → Agree Z t' t'' → Q a t'') :
    Settles n O Z (liftM x : Tidying α) Q :=
  fun depth t cover clean => gives_lift (h t cover clean) depth

/-- Joining lines keeps the starts clean, so whatever comes behind it may keep to the same
offsets. -/
theorem joins_bind {e : LineEdit} {f : PUnit → Tidying β}
    (joins : ∀ t, t.Over n → Gives e t fun _ t' =>
      t'.Over n ∧ (∀ s ∈ t'.starts, s ∈ t.starts) ∧ Agree (fun s => ¬ Z s) t t')
    (next : Settles n O Z (f ⟨⟩) R) : Settles n O Z ((liftM e : Tidying PUnit) >>= f) R := by
  intro depth t cover clean
  refine .bind (gives_lift (joins t cover) depth) ?_
  rintro ⟨_, depth'⟩ t₁ ⟨cover₁, fewer, kept₁⟩
  refine (next _ t₁ cover₁ (clean.of_subset fewer)).mono fun r t₂ ⟨cover₂, kept₂, settled⟩ => ?_
  exact ⟨cover₂, kept₁.trans kept₂, settled⟩

end Settles

/-! ### Along landmarks -/

/-- Strictly between two offsets. -/
def Inside (lo hi s : Nat) : Prop := lo < s ∧ s < hi

/-- Wherever the landmarks are in order, the step keeps to the offsets between them. -/
def Along (n : Nat) (O : Nat → Prop) (ok : Landmark → Prop) (ls : List Landmark) (x : Tidying α)
    (Q : α → LineTable → Prop) : Prop :=
  ∀ lo hi, InOrder ok hi lo ls → Settles n O (Inside lo hi) x Q

namespace Along

variable {ok : Landmark → Prop} {ls ls' : List Landmark} {l : Landmark} {x : Tidying α}
  {Q : α → LineTable → Prop} {R : β → LineTable → Prop}

theorem pure {a : α} (h : ∀ t, t.Over n → Q a t) : Along n O ok ls (Pure.pure a) Q :=
  fun _ _ _ => .pure h

theorem imp {Q' : α → LineTable → Prop} (h : Along n O ok ls x Q)
    (weaker : ∀ a t, t.Over n → Q a t → Q' a t) : Along n O ok ls x Q' :=
  fun lo hi inOrder => (h lo hi inOrder).imp weaker

theorem cast (same : ls = ls') (h : Along n O ok ls' x Q) : Along n O ok ls x Q := same ▸ h

/-- A landmark in front. -/
theorem behind (h : Along n O ok ls x Q) : Along n O ok (l :: ls) x Q := by
  rintro lo hi ⟨real, -, before, inOrder⟩
  refine (h l.stop hi inOrder).widen fun s within => ⟨?_, within.2⟩
  exact Nat.lt_of_le_of_lt (Nat.le_trans before real.le) within.1

/-- Landmarks in front. -/
theorem past (h : Along n O ok ls' x Q) : Along n O ok (ls ++ ls') x Q :=
  fun lo hi inOrder => h lo hi inOrder.right

/-- Landmarks at the end. -/
theorem before (h : Along n O ok ls x Q) : Along n O ok (ls ++ ls') x Q :=
  fun lo hi inOrder => h lo hi inOrder.left

theorem bind {f : α → Tidying β} (first : Along n O ok ls x Q)
    (next : ∀ a, (∃ t, Q a t) → Along n O ok ls' (f a) fun b t => Q a t → R b t) :
    Along n O ok (ls ++ ls') (x >>= f) R := by
  intro lo hi inOrder
  obtain ⟨mid, left, right⟩ := Landmark.inOrder_append.mp inOrder
  have apart : ∀ s, Inside lo mid s → ¬ Inside mid hi s := by
    intro s within within'
    have := within.2
    have := within'.1
    omega
  refine (Settles.bind (first lo mid left) apart fun a known => next a known mid hi right).widen ?_
  rintro s (within | within)
  · exact ⟨within.1, Nat.lt_of_lt_of_le within.2 right.le⟩
  · exact ⟨Nat.lt_of_le_of_lt left.le within.1, within.2⟩

theorem assoc {ls'' : List Landmark} (h : Along n O ok (ls ++ (ls' ++ ls'')) x Q) :
    Along n O ok (ls ++ ls' ++ ls'') x Q := .cast (List.append_assoc ..) h

theorem pure_bind {a : α} {f : α → Tidying β} (h : Along n O ok ls (f a) R) :
    Along n O ok ls (Pure.pure a >>= f) R := h

/-- The last step of several. -/
theorem last {f : α → Tidying β} (h : Along n O ok ls x Q)
    (done : ∀ a, ∃ b, f a = Pure.pure b ∧ ∀ t, t.Over n → Q a t → R b t) :
    Along n O ok ls (x >>= f) R :=
  fun lo hi inOrder => (h lo hi inOrder).last done

theorem quiet_bind {f : α → Tidying β} (quiet : Settles n O (fun _ => False) x Q)
    (next : ∀ a, (∃ t, Q a t) → Along n O ok ls (f a) fun b t => Q a t → R b t) :
    Along n O ok ls (x >>= f) R :=
  fun lo hi inOrder => .quiet_bind quiet fun a known => next a known lo hi inOrder

end Along

end Tidy

end GoLayout
