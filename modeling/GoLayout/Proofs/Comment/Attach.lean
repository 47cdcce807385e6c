import GoLayout.Comment.Attach
import GoLayout.Proofs.Token.Lexeme
import Mathlib.Data.List.TakeWhile

/-!
Attaching comments leaves the tokens as they are, and the groups it forms are made of the comments
it was given, each in one group. Where the first token has comments before it, their groups follow
from which neighbours among them are near, and the last group leads the token if it ends on the
line above.
-/

namespace GoLayout

namespace Attached

theorem takeRun_append (lines : LineTable) (slack endLine : Nat) (cs : List Comment) :
    (takeRun lines slack endLine cs).1 ++ (takeRun lines slack endLine cs).2.2 = cs := by
  induction cs generalizing endLine with
  | nil => rfl
  | cons c cs ih =>
    unfold takeRun
    split
    · exact congrArg (c :: ·) (ih _)
    · rfl

theorem takeGroup_append (lines : LineTable) (slack : Nat) (c : Comment) (cs : List Comment) :
    (takeGroup lines slack c cs).1.toList ++ (takeGroup lines slack c cs).2.2 = c :: cs :=
  congrArg (c :: ·) (takeRun_append lines slack _ cs)

theorem mem_of_mem_groups {lines : LineTable} {fuel : Nat} {cs : List Comment} :
    ∀ g ∈ groups lines fuel cs, ∀ c ∈ g.1.toList, c ∈ cs := by
  induction fuel generalizing cs with
  | zero => simp [groups]
  | succ fuel ih =>
    cases cs with
    | nil => simp [groups]
    | cons c cs =>
      have parts := takeGroup_append lines 1 c cs
      unfold groups
      generalize takeGroup lines 1 c cs = taken at parts ⊢
      obtain ⟨group, endLine, rest⟩ := taken
      dsimp only at parts ⊢
      rw [← parts]
      refine List.forall_mem_cons.mpr ⟨fun x mem => List.mem_append_left _ mem, ?_⟩
      exact fun g later x mem => List.mem_append_right _ (ih g later x mem)

theorem mem_of_mem_gap {lines : LineTable} {prevLine : Nat} {next : Token} {cs : List Comment} :
    ∀ g ∈ (gap lines prevLine next cs).groups, ∀ c ∈ g.toList, c ∈ cs := by
  cases cs with
  | nil => simp [gap]
  | cons c cs =>
    unfold gap
    dsimp only
    split
    · have parts := takeGroup_append lines 0 c cs
      generalize takeGroup lines 0 c cs = taken at parts ⊢
      obtain ⟨first, endLine, rest⟩ := taken
      dsimp only at parts ⊢
      rw [← parts]
      refine List.forall_mem_cons.mpr ⟨fun x mem => List.mem_append_left _ mem, ?_⟩
      intro g later x mem
      obtain ⟨g', found, rfl⟩ := List.mem_map.mp later
      exact List.mem_append_right _ (mem_of_mem_groups g' found x mem)
    · intro g later x mem
      obtain ⟨g', found, rfl⟩ := List.mem_map.mp later
      exact mem_of_mem_groups g' found x mem

theorem attach_tokens (lines : LineTable) (prevLine index : Nat) (ts : List Token)
    (cs : List Comment) : (attach lines prevLine index ts cs).1.map (·.toToken) = ts := by
  induction ts generalizing prevLine index cs with
  | nil => rfl
  | cons t ts ih => exact congrArg (t :: ·) (ih _ _ _)

theorem mem_of_mem_attach {lines : LineTable} {prevLine index : Nat} {ts : List Token}
    {cs : List Comment} :
    ∀ g ∈ (attach lines prevLine index ts cs).2, ∀ c ∈ g.toList, c ∈ cs := by
  induction ts generalizing prevLine index cs with
  | nil => simp [attach]
  | cons t ts ih =>
    intro g mem c inGroup
    unfold attach at mem
    rw [List.span_eq_takeWhile_dropWhile] at mem
    rcases List.mem_append.mp mem with here | behind
    · exact List.takeWhile_subset _ (mem_of_mem_gap g here c inGroup)
    · exact List.dropWhile_subset _ (ih g behind c inGroup)

/-! ### Groups by neighbours -/

/-- Whether a comment starts on the line on which the one before it ends, or on the next one. -/
def isNear (lines : LineTable) (c d : Comment) : Bool :=
  lines.line d.span.start ≤ lines.lastLine c.span + 1

/-- The groups with a comment put in front of the first of them. -/
def consGroup (c : Comment) : List (CommentGroup × Nat) → List (CommentGroup × Nat)
  | [] => []
  | (g, endLine) :: rest => (⟨c, g.toList⟩, endLine) :: rest

/-- The groups of a run of comments: a comment is in the group of the next one if that is near. -/
def groupsOf (lines : LineTable) : List Comment → List (CommentGroup × Nat)
  | [] => []
  | [c] => [(⟨c, []⟩, lines.lastLine c.span)]
  | c :: d :: rest =>
    if isNear lines c d then consGroup c (groupsOf lines (d :: rest))
    else (⟨c, []⟩, lines.lastLine c.span) :: groupsOf lines (d :: rest)

theorem groups_eq_groupsOf (lines : LineTable) {fuel : Nat} {cs : List Comment}
    (enough : cs.length ≤ fuel) : groups lines fuel cs = groupsOf lines cs := by
  fun_induction groupsOf lines cs generalizing fuel with
  | case1 => cases fuel <;> rfl
  | case2 c =>
    obtain ⟨n, rfl⟩ : ∃ n, fuel = n + 1 := ⟨fuel - 1, by simp at enough; omega⟩
    cases n <;> rfl
  | case3 c d rest near ih =>
    obtain ⟨n, rfl⟩ : ∃ n, fuel = n + 1 := ⟨fuel - 1, by simp at enough; omega⟩
    have near : lines.line d.span.start ≤ lines.lastLine c.span + 1 := of_decide_eq_true near
    rw [← @ih (n + 1) (by simp at enough ⊢; omega)]
    simp only [groups, takeGroup, takeRun, if_pos near]
    rfl
  | case4 c d rest apart ih =>
    obtain ⟨n, rfl⟩ : ∃ n, fuel = n + 1 := ⟨fuel - 1, by simp at enough; omega⟩
    have apart : ¬ lines.line d.span.start ≤ lines.lastLine c.span + 1 := by
      simpa [isNear] using apart
    rw [← @ih n (by simp at enough ⊢; omega)]
    simp only [groups, takeGroup, takeRun, if_neg apart]

theorem groupsOf_ne_nil (lines : LineTable) (c : Comment) (cs : List Comment) :
    groupsOf lines (c :: cs) ≠ [] := by
  induction cs generalizing c with
  | nil => simp [groupsOf]
  | cons d cs ih =>
    unfold groupsOf
    split
    · cases rest : groupsOf lines (d :: cs) with
      | nil => exact absurd rest (ih d)
      | cons g gs => simp [consGroup]
    · simp

theorem flatMap_consGroup (c : Comment) {gs : List (CommentGroup × Nat)} (h : gs ≠ []) :
    (consGroup c gs).flatMap (·.1.toList) = c :: gs.flatMap (·.1.toList) := by
  cases gs with
  | nil => exact absurd rfl h
  | cons g gs => rfl

theorem flatMap_groupsOf (lines : LineTable) (cs : List Comment) :
    (groupsOf lines cs).flatMap (·.1.toList) = cs := by
  fun_induction groupsOf lines cs with
  | case1 => rfl
  | case2 c => rfl
  | case3 c d rest near ih => rw [flatMap_consGroup c (groupsOf_ne_nil lines d rest), ih]
  | case4 c d rest apart ih => rw [List.flatMap_cons, ih]; rfl

theorem getLast?_consGroup (c : Comment) (gs : List (CommentGroup × Nat)) :
    (consGroup c gs).getLast?.map (·.2) = gs.getLast?.map (·.2) := by
  cases gs with
  | nil => rfl
  | cons g gs =>
    cases gs with
    | nil => rfl
    | cons g' gs => simp [consGroup]

/-- The last group ends with the last comment. -/
theorem getLast?_groupsOf (lines : LineTable) (cs : List Comment) :
    (groupsOf lines cs).getLast?.map (·.2) = cs.getLast?.map (lines.lastLine ·.span) := by
  fun_induction groupsOf lines cs with
  | case1 => rfl
  | case2 c => rfl
  | case3 c d rest near ih => rw [getLast?_consGroup, ih, List.getLast?_cons_cons]
  | case4 c d rest apart ih =>
    obtain ⟨g, gs, parts⟩ := List.exists_cons_of_ne_nil (groupsOf_ne_nil lines d rest)
    rw [List.getLast?_cons_cons, ← ih, parts, List.getLast?_cons_cons]

/-- Comments that say the same, with the same neighbours near. -/
inductive Alike (lines lines' : LineTable) : List Comment → List Comment → Prop where
  | nil : Alike lines lines' [] []
  | one {c c' : Comment} (text : c'.text = c.text) : Alike lines lines' [c] [c']
  | cons {c c' d d' : Comment} {cs cs' : List Comment} (text : c'.text = c.text)
      (near : isNear lines' c' d' = isNear lines c d)
      (rest : Alike lines lines' (d :: cs) (d' :: cs')) :
      Alike lines lines' (c :: d :: cs) (c' :: d' :: cs')

theorem map_texts_consGroup (c : Comment) (gs : List (CommentGroup × Nat)) :
    (consGroup c gs).map (·.1.texts) = (gs.map (·.1.texts)).modifyHead (c.text :: ·) := by
  cases gs <;> rfl

/-- Which groups are formed depends on which neighbours are near. -/
theorem Alike.texts_groupsOf {lines lines' : LineTable} {cs cs' : List Comment}
    (alike : Alike lines lines' cs cs') :
    (groupsOf lines' cs').map (·.1.texts) = (groupsOf lines cs).map (·.1.texts) := by
  induction alike with
  | nil => rfl
  | one text => simp [groupsOf, CommentGroup.texts, CommentGroup.toList, text]
  | cons text near rest ih =>
    simp only [groupsOf, near]
    split
    · rw [map_texts_consGroup, map_texts_consGroup, ih, text]
    · rw [List.map_cons, List.map_cons, ih]
      simp [CommentGroup.texts, CommentGroup.toList, text]

/-! ### Every comment in one group -/

theorem gap_flatMap (lines : LineTable) (prevLine : Nat) (next : Token) (cs : List Comment) :
    (gap lines prevLine next cs).groups.flatMap CommentGroup.toList = cs := by
  cases cs with
  | nil => rfl
  | cons c cs =>
    unfold gap
    dsimp only
    split
    · have parts := takeGroup_append lines 0 c cs
      generalize takeGroup lines 0 c cs = taken at parts ⊢
      obtain ⟨first, endLine, rest⟩ := taken
      dsimp only at parts ⊢
      rw [List.flatMap_cons, List.flatMap_map, groups_eq_groupsOf lines (Nat.le_refl _),
        flatMap_groupsOf, parts]
    · dsimp only
      rw [List.flatMap_map, groups_eq_groupsOf lines (Nat.le_refl _), flatMap_groupsOf]

/-- The end of a source behind all its comments. -/
def EndsBehind (comments : List Comment) (t : Token) : Prop :=
  t.kind = .eof ∧ ∀ c ∈ comments, c.span.start < t.span.start

theorem EndsBehind.subset {cs ds : List Comment} {e : Token} (atEnd : EndsBehind cs e)
    (sub : ds ⊆ cs) : EndsBehind ds e := ⟨atEnd.1, fun c mem => atEnd.2 c (sub mem)⟩

theorem EndsBehind.takeWhile_eq {cs : List Comment} {e : Token} (atEnd : EndsBehind cs e) :
    cs.takeWhile (·.span.start < e.span.start) = cs := by
  rw [List.takeWhile_eq_self_iff]
  intro c mem
  simpa using atEnd.2 c mem

theorem attach_flatMap {lines : LineTable} {prevLine index : Nat} {ts : List Token} {e : Token}
    {cs : List Comment} (atEnd : EndsBehind cs e) :
    (attach lines prevLine index (ts ++ [e]) cs).2.flatMap CommentGroup.toList = cs := by
  induction ts generalizing prevLine index cs with
  | nil =>
    simp only [List.nil_append, attach, List.span_eq_takeWhile_dropWhile, atEnd.takeWhile_eq,
      List.append_nil, gap_flatMap]
  | cons t ts ih =>
    have later := atEnd.subset (List.dropWhile_subset (·.span.start < t.span.start))
    simp only [List.cons_append, attach, List.span_eq_takeWhile_dropWhile, List.flatMap_append,
      gap_flatMap, ih later, List.takeWhile_append_dropWhile]

/-! ### What leads the first token -/

/-- What the group says that leads a token on `nextLine`, if there is one among the groups of the
comments before it. -/
def leadTexts (lines : LineTable) (nextLine : Nat) (cs : List Comment) : Option (List String) :=
  if leads nextLine (groupsOf lines cs) then (groupsOf lines cs).getLast?.map (·.1.texts) else none

theorem leads_groupsOf (lines : LineTable) (nextLine : Nat) (cs : List Comment) :
    leads nextLine (groupsOf lines cs) =
      cs.getLast?.any fun c => lines.lastLine c.span + 1 == nextLine := by
  have last := getLast?_groupsOf lines cs
  have any : leads nextLine (groupsOf lines cs) =
      ((groupsOf lines cs).getLast?.map (·.2)).any (· + 1 == nextLine) := by
    rw [Option.any_map]
    rfl
  rw [any, last, Option.any_map]

/-- No comment stands on the line before the first. -/
theorem gap_first {lines : LineTable} (positive : ∀ pos, 0 < lines.line pos) (next : Token)
    (cs : List Comment) :
    gap lines 0 next cs = ⟨(groupsOf lines cs).map (·.1), false,
      leads (lines.line next.span.start) (groupsOf lines cs)⟩ := by
  cases cs with
  | nil => rfl
  | cons c cs =>
    have other : ¬ (lines.line c.span.start == 0) = true := by
      have := positive c.span.start
      simp
      omega
    simp only [gap, if_neg other, groups_eq_groupsOf lines (Nat.le_refl _)]

/-- The group that leads the first token says what `leadTexts` tells. -/
theorem attach_first {lines : LineTable} (positive : ∀ pos, 0 < lines.line pos) (t : Token)
    (ts : List Token) (cs : List Comment) :
    ∃ first rest groups, attach lines 0 0 (t :: ts) cs = (first :: rest, groups) ∧
      first.toToken = t ∧ (first.lead.bind (groups[·]?)).map (·.texts) =
        leadTexts lines (lines.line t.span.start) (cs.takeWhile (·.span.start < t.span.start)) := by
  unfold attach
  rw [List.span_eq_takeWhile_dropWhile]
  dsimp only
  rw [gap_first positive]
  refine ⟨_, _, _, rfl, rfl, ?_⟩
  generalize cs.takeWhile (·.span.start < t.span.start) = before
  generalize (attach lines _ _ ts _).2 = later
  unfold leadTexts
  dsimp only
  split
  · rename_i leads
    have nonempty : groupsOf lines before ≠ [] := by
      intro none
      simp [none, Attached.leads] at leads
    have inside : (groupsOf lines before).length - 1 < (groupsOf lines before).length := by
      have := List.length_pos_iff.mpr nonempty
      omega
    rw [Option.bind_some, List.length_map, Nat.zero_add,
      List.getElem?_append_left (by simpa using inside), List.getElem?_map,
      ← List.getLast?_eq_getElem?, Option.map_map]
    rfl
  · rfl

end Attached

/-! ### Places in order -/

section Ascending

variable {α : Type} {l : List α} (place : α → Nat)
  (ascending : l.Pairwise fun a b => place a ≤ place b)
include ascending

theorem takeWhile_lt_eq_filter (n : Nat) :
    l.takeWhile (place · < n) = l.filter (place · < n) := by
  induction l with
  | nil => rfl
  | cons a rest ih =>
    obtain ⟨first, ascending⟩ := List.pairwise_cons.mp ascending
    by_cases low : place a < n
    · simp [low, ih ascending]
    · have none : rest.filter (place · < n) = [] := by
        refine List.filter_eq_nil_iff.mpr fun b mem => ?_
        simpa using Nat.le_trans (Nat.le_of_not_lt low) (first b mem)
      simp [low, none]

theorem dropWhile_lt_eq_filter (n : Nat) :
    l.dropWhile (place · < n) = l.filter (n ≤ place ·) := by
  induction l with
  | nil => rfl
  | cons a rest ih =>
    obtain ⟨first, ascending⟩ := List.pairwise_cons.mp ascending
    by_cases low : place a < n
    · simp [low, Nat.not_le.mpr low, ih ascending]
    · have all : rest.filter (n ≤ place ·) = rest := by
        refine List.filter_eq_self.mpr fun b mem => ?_
        simpa using Nat.le_trans (Nat.le_of_not_lt low) (first b mem)
      simp [low, Nat.le_of_not_lt low, all]

end Ascending

theorem Scan.comments_endsBehind (src : String) :
    Attached.EndsBehind (Scan.ofSource src).comments ⟨.eof, .point src.utf8ByteSize⟩ :=
  ⟨rfl, fun c mem => (Scan.comments_within src c mem).1⟩

namespace CommentGroup

/-- All comments of the groups end within the first `n` bytes. -/
def Below (n : Nat) (groups : List CommentGroup) : Prop :=
  ∀ g ∈ groups, ∀ c ∈ g.toList, c.span.stop ≤ n

theorem Below.inlineAt {n pos : Nat} {groups : List CommentGroup} {lines : LineTable}
    (below : Below n groups) : ∀ c ∈ inlineAt groups lines pos, c.span.stop ≤ n := by
  intro c found
  obtain ⟨g, first, inGroup⟩ := Option.bind_eq_some_iff.mp found
  have mem := List.dropWhile_subset _ (List.mem_of_mem_head? first)
  exact below g mem c (List.mem_of_find?_eq_some inGroup)

section Ascending

variable {groups : List CommentGroup} (h : groups.Pairwise fun g g' => g.start ≤ g'.start)
include h

theorem dropWhile_eq_filter (pos : Nat) :
    groups.dropWhile (·.start < pos) = groups.filter (pos ≤ ·.start) :=
  dropWhile_lt_eq_filter start h pos

/-- The groups between two offsets, which may come in either order. -/
theorem between_eq_filter (lo hi : Nat) :
    between groups lo hi = groups.filter fun g => lo ≤ g.start && g.start < hi := by
  have behind := h.sublist (List.dropWhile_sublist (·.start < lo))
  rw [between, takeWhile_lt_eq_filter start behind, dropWhile_eq_filter h, List.filter_filter]
  exact List.filter_congr fun g _ => Bool.and_comm _ _

end Ascending

end CommentGroup

end GoLayout
