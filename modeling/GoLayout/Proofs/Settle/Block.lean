import GoLayout.Proofs.Comment.Attach
import GoLayout.Proofs.Settle.Literal

/-!
Lines in blocks and clauses. What is done on entering a block or a clause joins lines only, and only
between its statements and at its ends, but for the header of a clause.
-/

namespace GoLayout

variable {n : Nat}

open LineTable (Agree Clean)

namespace LineTable

/-- The second table has fewer starts, but those outside `Z`. -/
structure Loses (n : Nat) (Z : Nat → Prop) (t t' : LineTable) : Prop where
  cover : t'.Over n
  fewer : ∀ s ∈ t'.starts, s ∈ t.starts
  kept : ∀ s ∈ t.starts, ¬ Z s → s ∈ t'.starts

variable {Z Z' : Nat → Prop} {t t' t'' : LineTable} {a b : Nat}

theorem Loses.refl (h : t.Over n) : Loses n Z t t := ⟨h, fun _ mem => mem, fun _ mem _ => mem⟩

theorem Loses.trans (first : Loses n Z t t') (second : Loses n Z t' t'') : Loses n Z t t'' where
  cover := second.cover
  fewer := fun s mem => first.fewer s (second.fewer s mem)
  kept := fun s mem out => second.kept s (first.kept s mem out) out

theorem Loses.mono (h : Loses n Z t t') (wider : ∀ s, Z s → Z' s) : Loses n Z' t t' :=
  ⟨h.cover, h.fewer, fun s mem out => h.kept s mem fun within => out (wider s within)⟩

theorem Loses.agree (h : Loses n Z t t') : Agree (fun s => ¬ Z s) t t' :=
  fun s out => ⟨h.fewer s, fun mem => h.kept s mem out⟩

theorem BreaksOnce.of_loses (once : t.BreaksOnce a b) (loses : t.Loses n Z t') :
    t'.BreaksOnce a b := fun s mem s' mem' =>
  once s (loses.fewer s mem) s' (loses.fewer s' mem')

theorem removeBetween_loses (h : t.Over n) (within : ∀ s, a < s → s ≤ b → Z s) :
    Gives (removeBetween a b) t fun _ t' => Loses n Z t t' ∧ t'.BreaksOnce (a + 1) b := by
  intro _ t' run
  have cover := Gives.of_yields (removeBetween_yields h a b) _ _ run
  rw [h.ordered.removeBetween_eq] at run
  cases run
  have stays {s : Nat} (mem : s ∈ t.starts.filter (staysBetween a b t.starts)) :
      s ∈ t.starts ∧ (s ≤ a ∨ b < s ∨ ∀ r ∈ t.starts, a < r → r ≤ b → s ≤ r) := by
    obtain ⟨mem, holds⟩ := List.mem_filter.mp mem
    exact ⟨mem, of_decide_eq_true holds⟩
  refine ⟨⟨cover, fun s mem => (stays mem).1, fun s mem out => ?_⟩, ?_⟩
  · refine List.mem_filter.mpr ⟨mem, decide_eq_true ?_⟩
    by_contra inside
    simp only [not_or] at inside
    exact out (within s (by omega) (by omega))
  · intro s mem s' mem' low high low' high'
    obtain ⟨old, least⟩ := stays mem
    obtain ⟨old', least'⟩ := stays mem'
    have le := (least.resolve_left (by omega)).resolve_left (by omega) s' old' (by omega) high'
    have le' := (least'.resolve_left (by omega)).resolve_left (by omega) s old (by omega) high
    omega

theorem removeLines_loses (h : t.Over n) (within : ∀ s, a < s → s ≤ b → Z s) :
    Gives (removeLines (t.line a) (t.line b)) t fun _ t' =>
      Loses n Z t t' ∧ ¬ t'.Breaks (a + 1) b := by
  intro _ t' run
  have cover := Gives.of_yields (removeLines_line_yields h a b) _ _ run
  rw [h.ordered.removeLines_line] at run
  cases run
  refine ⟨⟨cover, fun s mem => (List.mem_filter.mp mem).1, fun s mem out => ?_⟩, ?_⟩
  · refine List.mem_filter.mpr ⟨mem, ?_⟩
    simp only [Bool.not_eq_true', Bool.and_eq_false_iff, decide_eq_false_iff_not]
    by_contra inside
    simp only [not_or, Decidable.not_not] at inside
    exact out (within s inside.1 inside.2)
  · rintro ⟨s, mem, low, high⟩
    have gone := (List.mem_filter.mp mem).2
    simp only [Bool.not_eq_true', Bool.and_eq_false_iff, decide_eq_false_iff_not] at gone
    omega

end LineTable

namespace Stmt

/-- The extent of a statement. -/
def extentSpan (s : Stmt) : Span := ⟨s.pos, s.stop⟩

/-- Where an error is defined and checked next, the definition does not end at an offset of `O`, and
the check has characters. -/
def Placed (O : Nat → Prop) (ss : List Stmt) : Prop :=
  ss.IsChain fun a b => a.definesErr → b.checksErr → 0 < a.stop ∧ ¬ O a.stop ∧ b.pos < b.stop

/-- At most one line starts between a statement that defines an error and the check of it. -/
def Checked (t : LineTable) (ss : List Stmt) : Prop :=
  ss.IsChain fun a b => a.definesErr → b.checksErr → 0 < a.stop ∧ t.BreaksOnce a.stop b.pos

variable {t t' : LineTable} {lo hi : Nat} {ss : List Stmt} {O : Nat → Prop}

theorem Checked.of_loses {Z : Nat → Prop} (loses : t.Loses n Z t') (h : Checked t ss) :
    Checked t' ss := by
  refine h.imp fun _ _ once defines checks => ?_
  obtain ⟨positive, once⟩ := once defines checks
  exact ⟨positive, once.of_loses loses⟩

theorem Checked.of_agree (placed : Placed O ss)
    (same : Agree (Span.Ahead lo (ss.map extentSpan)) t t') (h : Checked t ss) :
    Checked t' ss := by
  induction ss generalizing lo with
  | nil => exact .nil
  | cons a rest ih =>
    cases rest with
    | nil => exact .singleton a
    | cons b rest =>
      obtain ⟨here, behind⟩ := List.isChain_cons_cons.mp h
      obtain ⟨wide, placed⟩ := List.isChain_cons_cons.mp placed
      refine .cons_cons (fun defines checks => ?_) (ih placed (same.mono fun s => .inr) behind)
      obtain ⟨positive, once⟩ := here defines checks
      refine ⟨positive, same.breaksOnce (fun s low high => ?_) once⟩
      exact .inr (.inl ⟨low, high, (wide defines checks).2.2⟩)

theorem joinErrChecks_gives (cover : t.Over n) (placed : Placed O ss)
    (clean : t.Clean O (Span.Ahead lo (ss.map extentSpan))) :
    Gives (joinErrChecks ss) t fun _ t' =>
      t.Loses n (Span.Ahead lo (ss.map extentSpan)) t' ∧ Checked t' ss := by
  induction ss generalizing t lo with
  | nil => exact .pure ⟨.refl cover, .nil⟩
  | cons a rest ih =>
    cases rest with
    | nil => exact .pure ⟨.refl cover, .singleton a⟩
    | cons b rest =>
      obtain ⟨here, placed⟩ := List.isChain_cons_cons.mp placed
      have behind {t : LineTable} (cover : t.Over n)
          (clean : t.Clean O (Span.Ahead lo ((a :: b :: rest).map extentSpan)))
          (once : a.definesErr → b.checksErr → t.BreaksOnce (a.stop + 1) b.pos) :
          Gives (joinErrChecks (b :: rest)) t fun _ t' =>
            t.Loses n (Span.Ahead lo ((a :: b :: rest).map extentSpan)) t' ∧
              Checked t' (a :: b :: rest) := by
        refine (ih cover placed (clean.mono fun s => .inr)).mono fun _ t' ⟨loses, checked⟩ => ?_
        refine ⟨loses.mono fun s => .inr, .cons_cons (fun defines checks => ?_) checked⟩
        obtain ⟨positive, noEnd, wide⟩ := here defines checks
        refine ⟨positive, fun s mem s' mem' low high low' high' => ?_⟩
        -- No line starts right behind the definition, where a token ends.
        have other : ∀ s ∈ t'.starts, a.stop ≤ s → s ≤ b.pos → a.stop + 1 ≤ s := by
          intro s mem low high
          have within : Span.Ahead lo ((a :: b :: rest).map extentSpan) s :=
            .inr (.inl ⟨low, high, wide⟩)
          have start := clean s (loses.fewer s mem) within
          have : s ≠ a.stop := fun same => noEnd (same ▸ start)
          omega
        exact (once defines checks).of_loses loses s mem s' mem' (other s mem low high) high
          (other s' mem' low' high') high'
      unfold joinErrChecks
      split
      · rename_i both
        obtain ⟨defines, checks⟩ := Bool.and_eq_true_iff.mp both
        have between : ∀ s, a.stop < s → s ≤ b.pos →
            Span.Ahead lo ((a :: b :: rest).map extentSpan) s := fun s low high =>
          .inr (.inl ⟨Nat.le_of_lt low, high, (here defines checks).2.2⟩)
        refine .bind (LineTable.removeBetween_loses cover between) fun _ t₁ ⟨loses, once⟩ => ?_
        refine (behind loses.cover (clean.of_subset loses.fewer) fun _ _ => once).mono ?_
        exact fun _ t' ⟨loses', checked⟩ => ⟨loses.trans loses', checked⟩
      · rename_i other
        refine behind cover clean fun defines checks => ?_
        exact absurd (Bool.and_eq_true_iff.mpr ⟨defines, checks⟩) other

end Stmt

namespace CommentGroup

/-- Comments one behind the other. -/
structure Rising (groups : List CommentGroup) : Prop where
  forward : ∀ g ∈ groups, g.start ≤ g.stop
  ascending : groups.Pairwise fun g g' => g.start ≤ g'.start

theorem start_lt_of_mem_between {groups : List CommentGroup} {lo hi : Nat} {g : CommentGroup}
    (mem : g ∈ between groups lo hi) : g.start < hi :=
  of_decide_eq_true (List.mem_takeWhile_imp (p := fun g : CommentGroup => decide (g.start < hi)) mem)

theorem Rising.mem_between {groups : List CommentGroup} (h : Rising groups) {lo hi : Nat}
    {g : CommentGroup} : g ∈ between groups lo hi ↔ g ∈ groups ∧ lo ≤ g.start ∧ g.start < hi := by
  rw [between_eq_filter h.ascending]
  simp

theorem Rising.between {groups : List CommentGroup} (h : Rising groups) {lo hi : Nat} :
    ∀ g ∈ between groups lo hi, lo ≤ g.start ∧ g.start ≤ g.stop ∧ g.start < hi := by
  intro g mem
  obtain ⟨inGroups, low, high⟩ := h.mem_between.mp mem
  exact ⟨low, h.forward g inGroups, high⟩

/-- The first of the groups between two offsets starts before the others. -/
theorem Rising.start_le {groups : List CommentGroup} (h : Rising groups) {lo hi : Nat}
    {first : CommentGroup} (isFirst : first ∈ (CommentGroup.between groups lo hi).head?) :
    ∀ g ∈ CommentGroup.between groups lo hi, first.start ≤ g.start := by
  have ascending : (CommentGroup.between groups lo hi).Pairwise fun g g' => g.start ≤ g'.start := by
    rw [between_eq_filter h.ascending]
    exact h.ascending.filter _
  obtain ⟨rest, parts⟩ := List.head?_eq_some_iff.mp isFirst
  rw [parts] at ascending ⊢
  exact List.forall_mem_cons.mpr ⟨Nat.le_refl _, (List.pairwise_cons.mp ascending).1⟩

end CommentGroup

namespace Block

variable {t t' : LineTable} {comments : List CommentGroup} {b : Block}

/-- At most one line starts between the braces and what stands next to them. -/
def Trimmed (t : LineTable) (comments : List CommentGroup) (b : Block) : Prop :=
  ∀ e ∈ b.extent? comments, t.BreaksOnce (b.lbrace.start + 1) e.1 ∧
    t.BreaksOnce (e.2 + 1) b.rbrace.start

/-- The offsets of a block beside its statements. -/
def Beside (b : Block) : Nat → Prop :=
  Span.Beside b.rbrace.start (b.lbrace.start + 1) (b.stmts.map Stmt.extentSpan)

/-- The statements of a block stand between its braces. -/
def InRow (b : Block) : Prop :=
  Span.InRow b.rbrace.start (b.lbrace.start + 1) (b.stmts.map Stmt.extentSpan)

/-- Before and behind the contents of a block there is no statement. -/
theorem InRow.beside_extent (row : b.InRow) (rising : CommentGroup.Rising comments) :
    ∀ e ∈ b.extent? comments, (∀ s, b.lbrace.start < s → s ≤ e.1 → b.Beside s) ∧
      ∀ s, e.2 < s → s ≤ b.rbrace.start → b.Beside s := by
  obtain ⟨lbrace, stmts, rbrace⟩ := b
  have row : Span.InRow rbrace.start (lbrace.start + 1) (stmts.map Stmt.extentSpan) := row
  cases stmts with
  | nil =>
    intro e isExtent
    change e ∈ commentsExtent? comments ⟨lbrace, [], rbrace⟩ at isExtent
    obtain ⟨first, isFirst, behind⟩ := Option.bind_eq_some_iff.mp isExtent
    obtain ⟨last, isLast, ends⟩ := Option.bind_eq_some_iff.mp behind
    obtain rfl := Option.some.inj ends
    obtain ⟨-, -, first_lt⟩ := rising.between first (List.mem_of_head? isFirst)
    obtain ⟨last_ge, forward, -⟩ := rising.between last (List.mem_of_getLast? isLast)
    have empty : ∀ s, lbrace.start < s → s ≤ rbrace.start → Block.Beside ⟨lbrace, [], rbrace⟩ s :=
      fun s low high => ⟨low, high, by simp [Span.AnyInside]⟩
    refine ⟨fun s low high => empty s low ?_, fun s low high => empty s ?_ high⟩
    · exact Nat.le_trans high (Nat.le_of_lt first_lt)
    · exact Nat.lt_of_le_of_lt (Nat.le_trans last_ge forward) low
  | cons a rest =>
    have isLast := List.getLast?_eq_some_getLast (List.cons_ne_nil a rest)
    generalize (a :: rest).getLast _ = last at isLast
    have last' : last.extentSpan ∈ ((a :: rest).map Stmt.extentSpan).getLast? := by
      rw [List.getLast?_map, isLast]
      rfl
    have near : ∀ e : Nat × Nat, e.1 ≤ a.pos → last.stop ≤ e.2 →
        (∀ s, lbrace.start < s → s ≤ e.1 → Block.Beside ⟨lbrace, a :: rest, rbrace⟩ s) ∧
          ∀ s, e.2 < s → s ≤ rbrace.start → Block.Beside ⟨lbrace, a :: rest, rbrace⟩ s :=
      fun e first_le last_le =>
        ⟨fun s low high => row.beside_front low (Nat.le_trans high first_le), fun s low high =>
          row.beside_last last' (Nat.le_trans last_le (Nat.le_of_lt low)) high⟩
    have stmts : stmtsExtent? ⟨lbrace, a :: rest, rbrace⟩ = some (a.pos, last.stop) := by
      simp [stmtsExtent?, isLast]
    intro e isExtent
    unfold extent? at isExtent
    rw [stmts] at isExtent
    generalize commentsExtent? comments ⟨lbrace, a :: rest, rbrace⟩ = inner at isExtent
    cases inner with
    | none =>
      obtain rfl := Option.some.inj isExtent
      exact near _ (Nat.le_refl _) (Nat.le_refl _)
    | some e' =>
      obtain rfl := Option.some.inj isExtent
      exact near _ (Nat.min_le_left ..) (Nat.le_max_left ..)

theorem Trimmed.of_agree (row : b.InRow) (rising : CommentGroup.Rising comments)
    (same : Agree b.Beside t t') (h : b.Trimmed t comments) : b.Trimmed t' comments := by
  intro e isExtent
  obtain ⟨front, behind⟩ := row.beside_extent rising e isExtent
  obtain ⟨once, once'⟩ := h e isExtent
  exact ⟨same.breaksOnce front once, same.breaksOnce behind once'⟩

theorem trim_gives (always : Bool) (cover : t.Over n) (row : b.InRow)
    (rising : CommentGroup.Rising comments) :
    Gives (b.trim comments always) t fun _ t' =>
      t.Loses n b.Beside t' ∧ (always → b.Trimmed t' comments) := by
  unfold trim
  split
  · rename_i none
    have between : ∀ s, b.lbrace.start < s → s ≤ b.rbrace.start → b.Beside s := by
      obtain ⟨lbrace, stmts, rbrace⟩ := b
      cases stmts with
      | nil => exact fun s low high => ⟨low, high, by simp [Span.AnyInside]⟩
      | cons a rest =>
        have isLast := List.getLast?_eq_some_getLast (List.cons_ne_nil a rest)
        unfold extent? at none
        simp only [stmtsExtent?, List.head?_cons, isLast] at none
        split at none
        · cases none
        · cases none
        · rename_i other
          cases other
    refine (LineTable.removeBetween_loses cover between).mono ?_
    rintro - t' ⟨loses, -⟩
    refine ⟨loses, fun _ e isExtent => ?_⟩
    rw [none] at isExtent
    cases isExtent
  · rename_i pos stop isExtent
    obtain ⟨front, behind⟩ := row.beside_extent rising (pos, stop) isExtent
    split
    · refine .bind (LineTable.removeBetween_loses cover front) ?_
      rintro - t₁ ⟨loses, once⟩
      refine (LineTable.removeBetween_loses loses.cover behind).mono ?_
      rintro - t' ⟨loses', once'⟩
      refine ⟨loses.trans loses', fun _ e isExtent' => ?_⟩
      obtain rfl := Option.some.inj (isExtent.symm.trans isExtent')
      exact ⟨once.of_loses loses', once'⟩
    · rename_i other
      refine .pure ⟨.refl cover, fun isAlways => ?_⟩
      exact absurd (Bool.or_eq_true_iff.mpr (.inl isAlways)) other

end Block

end GoLayout
