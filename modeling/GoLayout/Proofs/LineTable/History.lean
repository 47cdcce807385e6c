import GoLayout.Proofs.LineTable
import Mathlib.Data.List.Chain
import Mathlib.Data.List.TakeWhile

/-!
Histories of edits. Whatever edits a table has been through, and whether they succeeded or failed
half way, its starts begin with zero, increase and stay within the text. On such a table every edit
between two offsets is exact: it changes the starts between them as told and no other start.
-/

namespace GoLayout.LineTable

variable {t : LineTable}

/-! ### Ordered tables -/

/-- The starts begin with zero, increase, and stay within the text. -/
structure Ordered (t : LineTable) : Prop where
  rooted : t.starts.head? = some 0
  increasing : t.starts.Pairwise (· < ·)
  within : ∀ s ∈ t.starts, s ≤ t.size

theorem Ordered.over (h : t.Ordered) : t.Over t.size := ⟨h.rooted, h.increasing, h.within, rfl⟩

theorem Over.ordered {n : Nat} (h : t.Over n) : t.Ordered :=
  ⟨h.rooted, h.increasing, h.size ▸ h.within⟩

theorem ordered_ofSource (src : String) : (ofSource src).Ordered := (over_ofSource src).ordered

theorem isChain_of_increasing {starts : List Nat} (h : increasing starts = true) :
    starts.IsChain (· < ·) := by
  fun_induction increasing starts with
  | case1 a b rest ih =>
    rw [Bool.and_eq_true, decide_eq_true_iff] at h
    exact .cons_cons h.1 (ih h.2)
  | case2 starts short =>
    match starts, short with
    | [], _ => exact .nil
    | [a], _ => exact .singleton a
    | a :: b :: rest, short => exact (short a b rest rfl).elim

theorem ordered_of_ofStarts? {starts : List Nat} {size : Nat} (h : ofStarts? starts size = some t) :
    t.Ordered := by
  unfold ofStarts? at h
  split at h
  · rename_i valid
    obtain rfl := Option.some.inj h
    simp only [Bool.and_eq_true, beq_iff_eq, List.all_eq_true, decide_eq_true_eq] at valid
    obtain ⟨⟨rooted, grows⟩, within⟩ := valid
    exact ⟨rooted, List.isChain_iff_pairwise.mp (isChain_of_increasing grows), within⟩
  · exact absurd h (by simp)

/-! ### The starts on either side of an offset -/

theorem lt_of_mem_dropWhile {a s : Nat} {starts : List Nat} (increasing : starts.Pairwise (· < ·))
    (mem : s ∈ starts.dropWhile (· ≤ a)) : a < s := by
  induction starts with
  | nil => simp at mem
  | cons first rest ih =>
    obtain ⟨below, increasing⟩ := List.pairwise_cons.mp increasing
    rw [List.dropWhile_cons] at mem
    split at mem
    · exact ih increasing mem
    · rename_i above
      have above : a < first := by simpa using above
      rcases List.mem_cons.mp mem with rfl | mem
      · exact above
      · exact above.trans (below s mem)

/-- The line of an offset counts the starts up to it, and these come before all others. -/
theorem Ordered.cut (h : t.Ordered) (a : Nat) : ∃ before behind,
    t.starts = before ++ behind ∧ before.length = t.line a ∧ (∀ s ∈ before, s ≤ a) ∧
      ∀ s ∈ behind, a < s := by
  refine ⟨t.starts.takeWhile (· ≤ a), t.starts.dropWhile (· ≤ a),
    List.takeWhile_append_dropWhile.symm, rfl, ?_, fun s => lt_of_mem_dropWhile h.increasing⟩
  intro s mem
  simpa using List.mem_takeWhile_imp mem

theorem Ordered.line_eq_countP (h : t.Ordered) (a : Nat) :
    t.line a = t.starts.countP (· ≤ a) := by
  obtain ⟨before, behind, starts, length, low, high⟩ := h.cut a
  have all : before.countP (· ≤ a) = before.length := by
    rw [List.countP_eq_length]
    intro s mem
    simpa using low s mem
  have none : behind.countP (· ≤ a) = 0 := by
    rw [List.countP_eq_zero]
    intro s mem
    simpa using high s mem
  rw [starts, List.countP_append, all, none, ← length, Nat.add_zero]

theorem Ordered.line_mono (h : t.Ordered) {a b : Nat} (le : a ≤ b) : t.line a ≤ t.line b := by
  rw [h.line_eq_countP, h.line_eq_countP]
  refine List.countP_mono_left fun s _ low => ?_
  simp only [decide_eq_true_eq] at low ⊢
  omega

/-- The starts up to one offset, those between it and a later one, and the rest. -/
theorem Ordered.cut_between (h : t.Ordered) {a b : Nat} (le : a ≤ b) : ∃ before inside behind,
    t.starts = before ++ (inside ++ behind) ∧ before.length = t.line a ∧
      before.length + inside.length = t.line b ∧
      (∀ s ∈ before, s ≤ a) ∧ (∀ s ∈ inside, a < s ∧ s ≤ b) ∧ ∀ s ∈ behind, b < s := by
  obtain ⟨before, later, starts, length, low, high⟩ := h.cut a
  have rest : later.Pairwise (· < ·) := (List.pairwise_append.mp (starts ▸ h.increasing)).2.1
  refine ⟨before, later.takeWhile (· ≤ b), later.dropWhile (· ≤ b), ?_, length, ?_, low, ?_,
    fun s => lt_of_mem_dropWhile rest⟩
  · rw [List.takeWhile_append_dropWhile, starts]
  · have all : before.takeWhile (· ≤ b) = before := by
      rw [List.takeWhile_eq_self_iff]
      intro s mem
      have := low s mem
      simpa using this.trans le
    rw [line, starts, List.takeWhile_append, all]
    simp
  · intro s mem
    exact ⟨high s (List.takeWhile_subset _ mem), by simpa using List.mem_takeWhile_imp mem⟩

/-- A start between two offsets puts them on different lines. -/
theorem Ordered.line_lt (h : t.Ordered) {a b s : Nat} (mem : s ∈ t.starts) (low : a < s)
    (high : s ≤ b) : t.line a < t.line b := by
  obtain ⟨before, inside, behind, starts, upTo, between, lows, -, highs⟩ :=
    h.cut_between (Nat.le_of_lt (Nat.lt_of_lt_of_le low high))
  rw [starts, List.mem_append, List.mem_append] at mem
  have found : s ∈ inside := by
    rcases mem with mem | mem | mem
    · have := lows s mem
      omega
    · exact mem
    · have := highs s mem
      omega
  have some := List.length_pos_of_mem found
  omega

/-- Two starts in a row make a blank line. -/
theorem line_blank {a o : Nat} (h : t.Ordered) (far : a + 2 ≤ o) (mem : o ∈ t.starts)
    (mem' : o - 1 ∈ t.starts) : t.line a + 1 < t.line o := by
  have first := h.line_lt mem' (show a < o - 1 by omega) (Nat.le_refl _)
  have second := h.line_lt mem (show o - 1 < o by omega) (Nat.le_refl _)
  omega

/-! ### Tables with fewer starts -/

section Fewer

variable {t' : LineTable} (h : t.Ordered) (h' : t'.Ordered) (fewer : t'.starts.Sublist t.starts)

include h h' fewer

theorem Ordered.line_le_of_sublist (a : Nat) : t'.line a ≤ t.line a := by
  rw [h.line_eq_countP, h'.line_eq_countP]
  exact fewer.countP_le

/-- Offsets come no further apart. -/
theorem Ordered.line_le_add_of_sublist {a b k : Nat} (near : t.line b ≤ t.line a + k) :
    t'.line b ≤ t'.line a + k := by
  rcases Nat.le_total b a with le | le
  · exact Nat.le_add_right_of_le (h'.line_mono le)
  · have between : ∀ t : LineTable, t.Ordered →
        t.line b = t.line a + (t.starts.filter (!· ≤ a)).countP (· ≤ b) := by
      intro t h
      have upTo : (t.starts.filter (· ≤ a)).countP (· ≤ b) = t.starts.countP (· ≤ a) := by
        rw [List.countP_filter]
        refine List.countP_congr fun s _ => ?_
        simp only [Bool.and_eq_true, decide_eq_true_eq]
        omega
      rw [h.line_eq_countP, h.line_eq_countP, List.countP_eq_countP_filter_add _ _ (· ≤ a), upTo]
    have inside := (fewer.filter (!· ≤ a)).countP_le (p := (· ≤ b))
    rw [between t h] at near
    rw [between t' h']
    omega

end Fewer

/-! ### What edits do to the starts -/

theorem mergeLine_eq_ok {line : Nat} (pos : 0 < line) (below : line < t.count) :
    mergeLine line t = .ok () { t with starts := t.starts.eraseIdx line } := by
  have fits : ¬(line = 0 || t.count ≤ line) = true := by simp; omega
  change (if (line = 0 || t.count ≤ line) = true then _ else _ : LineEdit) t = _
  rw [if_neg fits]
  rfl

theorem mergeLine_eq_error {line : Nat} (out : line = 0 ∨ t.count ≤ line) :
    mergeLine line t = .error (.mergeOutOfRange line t.count) t := by
  have out : (line = 0 || t.count ≤ line) = true := by simpa using out
  change (if (line = 0 || t.count ≤ line) = true then _ else _ : LineEdit) t = _
  rw [if_pos out]
  rfl

/-- Joining a line with those after it takes away as many starts behind its own. -/
theorem mergeLines_eq_ok {line times : Nat} (pos : 0 < line)
    (fits : times = 0 ∨ line + times ≤ t.count) :
    mergeLines line times t =
      .ok () { t with starts := t.starts.take line ++ t.starts.drop (line + times) } := by
  induction times generalizing t with
  | zero => simp [mergeLines, Pure.pure, EStateM.pure]
  | succ n ih =>
    have below : line < t.count := by omega
    have here : (t.starts.take line).length = line := by
      rw [List.length_take]
      exact Nat.min_eq_left (Nat.le_of_lt below)
    have erased : t.starts.eraseIdx line = t.starts.take line ++ t.starts.drop (line + 1) :=
      List.eraseIdx_eq_take_drop_succ ..
    change EStateM.bind (mergeLine line) (fun _ => mergeLines line n) t = _
    simp only [EStateM.bind, mergeLine_eq_ok pos below]
    rw [ih (by simp only [count, List.length_eraseIdx] at *; grind)]
    congr 2
    rw [erased, List.take_append_of_le_length (by omega), List.take_take, Nat.min_self]
    rw [List.drop_append, here, List.drop_eq_nil_of_le (by omega), List.nil_append,
      List.drop_drop]
    congr 2
    omega

theorem removeLines_eq_ok {first last : Nat} (pos : 0 < first) (within : last ≤ t.count) :
    removeLines first last t = .ok ()
      { t with starts := t.starts.take first ++ t.starts.drop (first + (last - first)) } :=
  mergeLines_eq_ok pos (by omega)

/-- Between two offsets all starts are taken away, and no other. -/
theorem Ordered.removeLines_line (h : t.Ordered) (a b : Nat) :
    removeLines (t.line a) (t.line b) t =
      .ok () { t with starts := t.starts.filter fun s => !(a < s && s ≤ b) } := by
  have pos : 0 < t.line a := t.line_pos h.over a
  rw [removeLines_eq_ok pos (t.line_le_count b)]
  congr 2
  rcases Nat.le_total a b with le | le
  · obtain ⟨before, inside, behind, starts, upTo, between, low, middle, high⟩ := h.cut_between le
    have kept : before.filter (fun s => !(a < s && s ≤ b)) = before :=
      List.filter_eq_self.mpr fun s mem => by have := low s mem; simp; omega
    have gone : inside.filter (fun s => !(a < s && s ≤ b)) = [] :=
      List.filter_eq_nil_iff.mpr fun s mem => by simpa using middle s mem
    have rest : behind.filter (fun s => !(a < s && s ≤ b)) = behind :=
      List.filter_eq_self.mpr fun s mem => by have := high s mem; simp; omega
    have last : t.line a + (t.line b - t.line a) = before.length + inside.length := by omega
    rw [last, starts, List.filter_append, List.filter_append, kept, gone, rest, ← upTo]
    simp
  · have all : t.starts.filter (fun s => !(a < s && s ≤ b)) = t.starts :=
      List.filter_eq_self.mpr fun s _ => by simp; omega
    rw [all, Nat.sub_eq_zero_of_le (h.line_mono le), Nat.add_zero, List.take_append_drop]

/-- Of the starts between two offsets the least one stays, and every other start as it was. -/
def staysBetween (a b : Nat) (starts : List Nat) (s : Nat) : Bool :=
  decide (s ≤ a ∨ b < s ∨ ∀ r ∈ starts, a < r → r ≤ b → s ≤ r)

theorem filter_staysBetween {a b : Nat} {before inside behind : List Nat}
    (increasing : (before ++ (inside ++ behind)).Pairwise (· < ·)) (low : ∀ s ∈ before, s ≤ a)
    (middle : ∀ s ∈ inside, a < s ∧ s ≤ b) (high : ∀ s ∈ behind, b < s) :
    (before ++ (inside ++ behind)).filter (staysBetween a b (before ++ (inside ++ behind))) =
      before ++ (inside.take 1 ++ behind) := by
  have kept : before.filter (staysBetween a b (before ++ (inside ++ behind))) = before :=
    List.filter_eq_self.mpr fun s mem => decide_eq_true (.inl (low s mem))
  have rest : behind.filter (staysBetween a b (before ++ (inside ++ behind))) = behind :=
    List.filter_eq_self.mpr fun s mem => decide_eq_true (.inr (.inl (high s mem)))
  cases inside with
  | nil => rw [List.filter_append, List.filter_append, kept, rest]; rfl
  | cons first others =>
    generalize listed : before ++ (first :: others ++ behind) = starts at *
    have here := middle first List.mem_cons_self
    have within : first ∈ starts := by simp [← listed]
    have grows := (List.pairwise_append.mp (listed ▸ increasing)).2.1
    have below := (List.pairwise_cons.mp grows).1
    have stays : staysBetween a b starts first = true := by
      refine decide_eq_true (.inr (.inr fun r mem lowR _ => ?_))
      rw [← listed] at mem
      rcases List.mem_append.mp mem with mem | mem
      · have := low r mem
        omega
      · rcases List.mem_cons.mp mem with rfl | mem
        · exact Nat.le_refl _
        · exact Nat.le_of_lt (below r mem)
    have gone : others.filter (staysBetween a b starts) = [] := by
      refine List.filter_eq_nil_iff.mpr fun s mem stays => ?_
      have there := middle s (List.mem_cons_of_mem _ mem)
      have after := below s (List.mem_append_left _ mem)
      rcases of_decide_eq_true stays with out | out | least
      · omega
      · omega
      · have := least first within here.1 here.2
        omega
    rw [← listed, List.filter_append, List.filter_append, listed, kept, rest,
      List.filter_cons_of_pos stays, gone]
    rfl

theorem Ordered.removeBetween_eq (h : t.Ordered) (a b : Nat) :
    removeBetween a b t =
      .ok () { t with starts := t.starts.filter (staysBetween a b t.starts) } := by
  change removeLines (t.line a + 1) (t.line b) t = _
  rw [removeLines_eq_ok (by omega) (t.line_le_count b)]
  congr 2
  rcases Nat.le_total a b with le | le
  · obtain ⟨before, inside, behind, starts, upTo, between, low, middle, high⟩ := h.cut_between le
    rw [starts, filter_staysBetween (starts ▸ h.increasing) low middle high, ← upTo, ← between]
    cases inside with
    | nil =>
      have none : before.length + ([] : List Nat).length - (before.length + 1) = 0 := by simp
      rw [none, Nat.add_zero, List.take_append_drop]
      rfl
    | cons first others =>
      have last : before.length + 1 + (before.length + (first :: others).length -
          (before.length + 1)) = before.length + (others.length + 1) := by
        simp only [List.length_cons]
        omega
      rw [last]
      rw [List.take_length_add_append, List.drop_length_add_append]
      simp
  · have all : t.starts.filter (staysBetween a b t.starts) = t.starts :=
      List.filter_eq_self.mpr fun s _ => decide_eq_true (by omega)
    have fewer : t.line b ≤ t.line a := h.line_mono le
    rw [all, Nat.sub_eq_zero_of_le (by omega), Nat.add_zero, List.take_append_drop]

theorem insertBreak_eq_ok {o : Nat} (within : o ≤ t.size) :
    insertBreak o t = .ok () { t with starts := insertStart o t.starts } := by
  have fits : ¬t.size < o := by omega
  change (if t.size < o then _ else _ : LineEdit) t = _
  rw [if_neg fits]
  rfl

/-- A start that is put in leaves the lines of earlier offsets as they are. -/
theorem line_insertStart {a o : Nat} (before : a < o) (starts : List Nat) (size : Nat) :
    line ⟨insertStart o starts, size⟩ a = line ⟨starts, size⟩ a := by
  simp only [line]
  congr 1
  induction starts with
  | nil => simp [insertStart, before]
  | cons s rest ih =>
    simp only [insertStart]
    split
    · rename_i less
      have above : ¬s ≤ a := by omega
      simp [before, above]
    · split
      · rfl
      · simp only [List.takeWhile_cons, ih]

theorem insertBreak_eq_error {o : Nat} (out : t.size < o) :
    insertBreak o t = .error (.breakOutOfRange o t.size) t := by
  change (if t.size < o then _ else _ : LineEdit) t = _
  rw [if_pos out]
  rfl

theorem mergeLine_gives {line : Nat} :
    Gives (mergeLine line) t fun _ t' => t'.starts.Sublist t.starts := by
  intro _ t' run
  by_cases fits : 0 < line ∧ line < t.count
  · rw [mergeLine_eq_ok fits.1 fits.2] at run
    cases run
    exact List.eraseIdx_sublist ..
  · rw [mergeLine_eq_error (by omega)] at run
    nomatch run

theorem insertBreak_gives {n o : Nat} (h : t.Over n) :
    Gives (insertBreak o) t fun _ t' =>
      t' = { t with starts := insertStart o t.starts } ∧ t'.Over n := by
  intro _ t' run
  by_cases within : o ≤ t.size
  · have cover := Gives.of_yields (insertBreak_yields h (h.size ▸ within)) _ _ run
    rw [insertBreak_eq_ok within] at run
    cases run
    exact ⟨rfl, cover⟩
  · rw [insertBreak_eq_error (by omega)] at run
    nomatch run

/-! ### Histories -/

/-- A request to edit a table. -/
inductive Edit where
  | mergeLine (line : Nat)
  | removeLines (first last : Nat)
  | removeBetween (a b : Nat)
  | insertBreak (offset : Nat)
deriving DecidableEq, Repr

def Edit.run : Edit → LineEdit
  | .mergeLine line => LineTable.mergeLine line
  | .removeLines first last => LineTable.removeLines first last
  | .removeBetween a b => LineTable.removeBetween a b
  | .insertBreak offset => LineTable.insertBreak offset

/-- The table that an edit leaves, also where it fails. -/
def leftBy (x : LineEdit) (t : LineTable) : LineTable :=
  match x t with
  | .ok _ t' | .error _ t' => t'

/-- The table behind a history of edits. -/
def after (t : LineTable) (edits : List Edit) : LineTable :=
  edits.foldl (fun t e => leftBy e.run t) t

/-- An ordered table for the same text. -/
def Keeps (t t' : LineTable) : Prop := t'.Ordered ∧ t'.size = t.size

theorem mergeLine_keeps (h : t.Ordered) (line : Nat) : Keeps t (leftBy (mergeLine line) t) := by
  by_cases fits : 0 < line ∧ line < t.count
  · rw [leftBy, mergeLine_eq_ok fits.1 fits.2]
    refine ⟨⟨?_, h.increasing.sublist (List.eraseIdx_sublist ..), ?_⟩, rfl⟩
    · have rooted := h.rooted
      obtain ⟨k, rfl⟩ : ∃ k, line = k + 1 := ⟨line - 1, by omega⟩
      cases starts : t.starts with
      | nil => simp [starts] at rooted
      | cons first rest => simpa [starts] using rooted
    · intro s mem
      exact h.within s (List.mem_of_mem_eraseIdx mem)
  · rw [leftBy, mergeLine_eq_error (by omega)]
    exact ⟨h, rfl⟩

theorem mergeLines_keeps (h : t.Ordered) (line times : Nat) :
    Keeps t (leftBy (mergeLines line times) t) := by
  induction times generalizing t with
  | zero => exact ⟨h, rfl⟩
  | succ n ih =>
    have first := mergeLine_keeps h line
    have run : mergeLines line (n + 1) t =
        EStateM.bind (mergeLine line) (fun _ => mergeLines line n) t := rfl
    rw [leftBy, run, EStateM.bind]
    rw [leftBy] at first
    cases step : mergeLine line t with
    | ok _ t' =>
      rw [step] at first
      obtain ⟨ordered, size⟩ := ih first.1
      exact ⟨ordered, size.trans first.2⟩
    | error _ t' =>
      rw [step] at first
      exact first

theorem insertBreak_keeps (h : t.Ordered) (o : Nat) : Keeps t (leftBy (insertBreak o) t) := by
  by_cases within : o ≤ t.size
  · rw [leftBy, insertBreak_eq_ok within]
    refine ⟨⟨head?_insertStart h.rooted, increasing_insertStart h.increasing, ?_⟩, rfl⟩
    intro s mem
    rcases mem_insertStart.mp mem with rfl | mem
    · exact within
    · exact h.within s mem
  · rw [leftBy, insertBreak_eq_error (by omega)]
    exact ⟨h, rfl⟩

/-- One edit, whatever its arguments. -/
theorem Edit.keeps (h : t.Ordered) (e : Edit) : Keeps t (leftBy e.run t) := by
  cases e with
  | mergeLine line => exact mergeLine_keeps h line
  | removeLines first last => exact mergeLines_keeps h first (last - first)
  | removeBetween a b => exact mergeLines_keeps h (t.line a + 1) (t.line b - (t.line a + 1))
  | insertBreak o => exact insertBreak_keeps h o

/-- A whole history. -/
theorem after_keeps (h : t.Ordered) (edits : List Edit) : Keeps t (t.after edits) := by
  induction edits generalizing t with
  | nil => exact ⟨h, rfl⟩
  | cons e rest ih =>
    obtain ⟨ordered, size⟩ := e.keeps h
    obtain ⟨ordered', size'⟩ := ih ordered
    exact ⟨ordered', size'.trans size⟩

/-- A table as it is made: from a source, or from starts that are accepted. -/
def IsOriginal (t : LineTable) : Prop :=
  (∃ src, t = ofSource src) ∨ ∃ starts size, ofStarts? starts size = some t

theorem IsOriginal.ordered (h : t.IsOriginal) : t.Ordered := by
  rcases h with ⟨src, rfl⟩ | ⟨starts, size, made⟩
  · exact ordered_ofSource src
  · exact ordered_of_ofStarts? made

/-- After any history of edits, failing ones included, the table is ordered and of the same size,
and lines count starts. An edit between two offsets then succeeds, and changes the starts between
them as told and no other start. -/
theorem edits_exact (origin : t.IsOriginal) (edits : List Edit) :
    let t' := t.after edits
    (t'.Ordered ∧ t'.size = t.size) ∧
      (∀ o, t'.line o = t'.starts.countP (· ≤ o)) ∧
      (∀ a b, removeLines (t'.line a) (t'.line b) t' =
        .ok () { t' with starts := t'.starts.filter fun s => !(a < s && s ≤ b) }) ∧
      (∀ a b, removeBetween a b t' =
        .ok () { t' with starts := t'.starts.filter (staysBetween a b t'.starts) }) ∧
      ∀ o ≤ t'.size, ∃ starts, insertBreak o t' = .ok () { t' with starts } ∧
        starts.Pairwise (· < ·) ∧ ∀ s, s ∈ starts ↔ s = o ∨ s ∈ t'.starts := by
  intro t'
  have kept : Keeps t t' := after_keeps origin.ordered edits
  have ordered := kept.1
  refine ⟨kept, ordered.line_eq_countP, ordered.removeLines_line, ordered.removeBetween_eq, ?_⟩
  intro o within
  exact ⟨_, insertBreak_eq_ok within, increasing_insertStart ordered.increasing,
    fun s => mem_insertStart⟩

theorem edits_exact_of_three_lines :
    let edits : List Edit := [.mergeLine 9, .removeLines 2 7, .insertBreak 5, .insertBreak 99]
    (ofSource "a
bc
d
").IsOriginal ∧ ((ofSource "a
bc
d
").after edits).starts = [0, 2, 5] ∧
      removeBetween 1 5 ((ofSource "a
bc
d
").after edits) = .ok () ⟨[0, 2], 7⟩ :=
  ⟨.inl ⟨_, rfl⟩, by decide, by
    have origin : (ofSource "a
bc
d
").IsOriginal := .inl ⟨_, rfl⟩
    have exactly := edits_exact origin
      [.mergeLine 9, .removeLines 2 7, .insertBreak 5, .insertBreak 99]
    exact exactly.2.2.2.1 1 5⟩

end GoLayout.LineTable
