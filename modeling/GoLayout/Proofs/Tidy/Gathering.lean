import GoLayout.Proofs.LineTable.History
import GoLayout.Proofs.Tidy.Imports

/-!
Where gathering puts the imports of a group. The first run of the standard library stays in place,
and what can be moved of the rest is put at the keyword. The imports are sorted run by run then, so
it matters that a blank line keeps the imports of other modules apart from those at the keyword.
There is one where the keyword stands at least two bytes before them.
-/

namespace GoLayout

namespace Imports

/-! ### Sorting run by run -/

theorem mem_of_mem_insertBy {α : Type} {le : α → α → Bool} {a b : α} {l : List α}
    (mem : b ∈ insertBy le a l) : b = a ∨ b ∈ l := by
  simpa using (insertBy_perm a l).mem_iff.mp mem

theorem pairwise_insertBy {a : Nat} {l : List Nat} (h : l.Pairwise (· ≤ ·)) :
    (insertBy (fun a b => decide (a ≤ b)) a l).Pairwise (· ≤ ·) := by
  induction l with
  | nil => exact List.pairwise_singleton _ _
  | cons b rest ih =>
    obtain ⟨least, ordered⟩ := List.pairwise_cons.mp h
    unfold insertBy
    split
    · rename_i le
      have le : a ≤ b := of_decide_eq_true le
      refine .cons (fun c mem => ?_) h
      rcases List.mem_cons.mp mem with rfl | mem
      · exact le
      · exact Nat.le_trans le (least c mem)
    · rename_i above
      have below : b ≤ a := by
        rw [decide_eq_true_eq] at above
        omega
      refine .cons (fun c mem => ?_) (ih ordered)
      rcases mem_of_mem_insertBy mem with rfl | mem
      · exact below
      · exact least c mem

theorem pairwise_sortBy (l : List Nat) :
    (sortBy (fun a b => decide (a ≤ b)) l).Pairwise (· ≤ ·) := by
  induction l with
  | nil => exact .nil
  | cons a rest ih => exact pairwise_insertBy ih

/-- The specs take the first slots. -/
theorem pos_assign {specs : List Spec} {slots : List Nat} (imports : ∀ s ∈ specs, s.IsImport) :
    (assign specs slots).map Spec.pos <+: slots := by
  fun_induction assign specs slots with
  | case1 s specs slot slots ih =>
    obtain ⟨here, behind⟩ := List.forall_mem_cons.mp imports
    have placed : (if s.pos == slot then s else s.restamp slot).pos = slot := by
      split
      · rename_i same
        exact eq_of_beq same
      · exact here.pos_restamp slot
    rw [List.map_cons, placed]
    exact (List.prefix_cons_inj slot).mpr (ih behind)
  | case2 => exact List.nil_prefix

/-- What holds of specs and of their copies holds of specs in slots. -/
theorem assign_forall {P : Spec → Prop} (copies : ∀ s pos, P s → P (s.restamp pos))
    {specs : List Spec} {slots : List Nat} (h : ∀ s ∈ specs, P s) :
    ∀ s ∈ assign specs slots, P s := by
  fun_induction assign specs slots with
  | case1 s specs slot slots ih =>
    obtain ⟨here, behind⟩ := List.forall_mem_cons.mp h
    refine List.forall_mem_cons.mpr ⟨?_, ih behind⟩
    split
    · exact here
    · exact copies s slot here
  | case2 => simp

section Run

variable {run : List Spec}

theorem mem_of_mem_sorted {s : Spec} (mem : s ∈ dropRepeats (sortBy specLe run)) : s ∈ run :=
  (sortBy_perm run).mem_iff.mp ((dropRepeats_sublist _).subset mem)

theorem sortRun_forall {P : Spec → Prop} (copies : ∀ s pos, P s → P (s.restamp pos))
    (h : ∀ s ∈ run, P s) : ∀ s ∈ sortRun run, P s :=
  assign_forall copies fun s mem => h s (mem_of_mem_sorted mem)

variable (imports : ∀ s ∈ run, s.IsImport)

include imports

theorem pos_sortRun : (sortRun run).map Spec.pos <+:
    sortBy (fun a b => decide (a ≤ b)) (run.map Spec.pos) :=
  pos_assign fun s mem => imports s (mem_of_mem_sorted mem)

/-- A sorted run has its specs in order. -/
theorem sortRun_ordered : (sortRun run).Pairwise fun a b => a.pos ≤ b.pos :=
  List.pairwise_map.mp ((pairwise_sortBy _).sublist (pos_sortRun imports).sublist)

theorem pos_mem_of_mem_sortRun : ∀ s ∈ sortRun run, s.pos ∈ run.map Spec.pos := by
  intro s mem
  exact (sortBy_perm _).mem_iff.mp ((pos_sortRun imports).subset (List.mem_map_of_mem mem))

end Run

variable {lines : LineTable} {specs : List Spec}

theorem mem_of_mem_runs {run : List Spec} (found : run ∈ runs lines specs) :
    ∀ s ∈ run, s ∈ specs := by
  intro s mem
  rw [← flatten_runs lines specs]
  exact List.mem_flatten.mpr ⟨run, found, mem⟩

theorem sortRuns_forall {P : Spec → Prop} (copies : ∀ s pos, P s → P (s.restamp pos))
    (h : ∀ s ∈ specs, P s) : ∀ s ∈ sortRuns lines specs, P s := by
  intro s mem
  obtain ⟨run, found, inRun⟩ := List.mem_flatMap.mp mem
  exact sortRun_forall copies (fun s' mem' => h s' (mem_of_mem_runs found s' mem')) s inRun

theorem pos_mem_of_mem_sortRuns (imports : ∀ s ∈ specs, s.IsImport) :
    ∀ s ∈ sortRuns lines specs, s.pos ∈ specs.map Spec.pos := by
  intro s mem
  obtain ⟨run, found, inRun⟩ := List.mem_flatMap.mp mem
  have inSpecs := mem_of_mem_runs found
  obtain ⟨s', mem', same⟩ := List.mem_map.mp
    (pos_mem_of_mem_sortRun (fun s' mem' => imports s' (inSpecs s' mem')) s inRun)
  exact List.mem_map.mpr ⟨s', inSpecs s' mem', same⟩

section Count

variable {p : Spec → Bool} (copies : ∀ s pos, p (s.restamp pos) → p s)
include copies

/-- What copies have only of the specs they come from, no more of the specs in slots have. -/
theorem countP_assign {slots : List Nat} : (assign specs slots).countP p ≤ specs.countP p := by
  fun_induction assign specs slots with
  | case1 s specs slot slots ih =>
    rw [List.countP_cons, List.countP_cons]
    refine Nat.add_le_add ih ?_
    split
    · exact Nat.le_refl _
    · by_cases holds : p (s.restamp slot)
      · rw [if_pos holds, if_pos (copies s slot holds)]
      · rw [if_neg holds]
        exact Nat.zero_le _
  | case2 => exact Nat.zero_le _

theorem countP_sortRun (run : List Spec) : (sortRun run).countP p ≤ run.countP p := by
  refine Nat.le_trans (countP_assign copies) ?_
  rw [← (sortBy_perm run).countP_eq]
  exact (dropRepeats_sublist _).countP_le

theorem countP_sortRuns (lines : LineTable) (specs : List Spec) :
    (sortRuns lines specs).countP p ≤ specs.countP p := by
  have each (found : List (List Spec)) :
      (found.flatMap sortRun).countP p ≤ found.flatten.countP p := by
    induction found with
    | nil => exact Nat.le_refl _
    | cons run more ih =>
      rw [List.flatMap_cons, List.flatten_cons, List.countP_append, List.countP_append]
      exact Nat.add_le_add (countP_sortRun copies run) ih
  have whole := each (runs lines specs)
  rwa [flatten_runs] at whole

end Count

/-! ### Runs -/

/-- The first run begins with the first spec. -/
theorem runs_cons (s : Spec) (rest : List Spec) :
    ∃ run more, runs lines (s :: rest) = (s :: run) :: more := by
  unfold runs
  split
  · split
    · exact ⟨_, _, rfl⟩
    · exact ⟨_, _, rfl⟩
  · exact ⟨_, _, rfl⟩

theorem runs_cons_cons (a b : Spec) (rest : List Spec) : ∃ run more,
    runs lines (b :: rest) = (b :: run) :: more ∧
      runs lines (a :: b :: rest) = if lines.line a.stop + 1 < lines.line b.pos then
        [a] :: (b :: run) :: more else (a :: b :: run) :: more := by
  obtain ⟨run, more, found⟩ := runs_cons b rest
  refine ⟨run, more, found, ?_⟩
  rw [runs, found]

/-- A blank line cuts specs into runs. -/
theorem runs_append {as bs : List Spec}
    (cut : ∀ a ∈ as.getLast?, ∀ b ∈ bs.head?, lines.line a.stop + 1 < lines.line b.pos) :
    runs lines (as ++ bs) = runs lines as ++ runs lines bs := by
  induction as with
  | nil => rfl
  | cons a as ih =>
    cases as with
    | nil =>
      cases bs with
      | nil => rfl
      | cons b bs =>
        obtain ⟨run, more, found, both⟩ := @runs_cons_cons lines a b bs
        change runs lines (a :: b :: bs) = _
        rw [both, if_pos (cut a rfl b rfl), found]
        rfl
    | cons a' as =>
      have rest := ih fun x mem => cut x (by rwa [List.getLast?_cons_cons])
      obtain ⟨run, more, found, both⟩ := @runs_cons_cons lines a a' as
      obtain ⟨run', more', found', both'⟩ := @runs_cons_cons lines a a' (as ++ bs)
      have same : (a' :: run') :: more' = ((a' :: run) :: more) ++ runs lines bs := by
        rw [← found', ← found]
        exact rest
      obtain ⟨sameRun, sameMore⟩ := List.cons.inj same
      cases sameRun
      cases sameMore
      change runs lines (a :: a' :: (as ++ bs)) = _
      rw [both, both']
      split
      · rfl
      · rfl

/-- Specs without blank lines between them are one run. -/
theorem runs_of_near {s : Spec}
    (near : (s :: specs).IsChain fun a b => lines.line b.pos ≤ lines.line a.stop + 1) :
    runs lines (s :: specs) = [s :: specs] := by
  induction specs generalizing s with
  | nil => rfl
  | cons b rest ih =>
    obtain ⟨here, behind⟩ := List.isChain_cons_cons.mp near
    obtain ⟨run, more, found, both⟩ := @runs_cons_cons lines s b rest
    rw [ih behind] at found
    cases found
    rw [both, if_neg (by omega)]

/-! ### Sorting out -/

variable {modulePath : Option String} {home : Nat} {t t' : LineTable} {g g' g'' : Gathering}

/-- What sorting out one import does. It stays in the first run, if that goes on and the import is
of the standard library; otherwise the first run is over. -/
inductive Gathering.Step (modulePath : Option String) (home : Nat) (t : LineTable)
    (prev : Option Spec) (s : Spec) (g g' : Gathering) (t' : LineTable) : Prop where
  | stays (inFirst : g.inFirst) (standard : s.isStandard modulePath)
    (near : prev = none ∨ t.line s.pos ≤ g.lastLine + 1)
    (grown : g' = { g with
      standard := g.standard ++ [s]
      lastLine := t.line s.pos
      standardLine := max g.standardLine (t.line s.stop) })
    (same : t' = t)
  | leaves (far : g.inFirst → s.isStandard modulePath →
      prev.isSome ∧ g.lastLine + 1 < t.line s.pos)
    (ended : g'.inFirst = false) (shelved : g.Shelves modulePath home [s] g')
    (fewer : t'.starts.Sublist t.starts)

theorem gatherSpec_step {prev : Option Spec} {next : Option Nat} {s : Spec}
    (isImport : s.IsImport) :
    Gives (gatherSpec modulePath home prev next s g) t (g.Step modulePath home t prev s) := by
  refine gatherSpec_sorting.gives fun x sorting => ?_
  cases sorting with
  | stays inFirst standard near => exact .pure (.stays inFirst standard near rfl rfl)
  | leaves left => exact .pure (.leaves left.far (left.ended isImport) left.shelved (.refl _))
  | joins left =>
    refine .bind LineTable.mergeLine_gives fun _ t₁ fewer => ?_
    exact .pure (.leaves left.far (left.ended isImport) left.shelved fewer)

/-- The imports `first` are the first run of a group: they are of the standard library, and each
stands at most a line below the one before. Behind it comes a blank line or another module. -/
structure FirstRun (modulePath : Option String) (t : LineTable) (first rest : List Spec) :
    Prop where
  standard : ∀ s ∈ first, s.isStandard modulePath
  near : first.IsChain fun a b => t.line b.pos ≤ t.line a.pos + 1
  ends : ∀ s ∈ rest.head?, s.isStandard modulePath →
    ∃ l ∈ first.getLast?, t.line l.pos + 1 < t.line s.pos

/-- All imports so far are in the first run. -/
structure Gathering.Begun (modulePath : Option String) (home : Nat) (t : LineTable)
    (seen : List Spec) (g : Gathering) : Prop where
  run : FirstRun modulePath t seen []
  lastLine : ∀ l ∈ seen.getLast?, g.lastLine = t.line l.pos
  inFirst : g.inFirst
  standard : g.standard = seen
  other : g.other = []
  moved : g.moved = false
  standardLine : t.line home ≤ g.standardLine

/-- All imports are sorted out. -/
structure Gathering.Done (modulePath : Option String) (home : Nat) (t : LineTable)
    (first rest : List Spec) (g : Gathering) : Prop where
  run : FirstRun modulePath t first rest
  standard : g.standard = first ++ movedTo modulePath home rest
  other : g.other = unmoved modulePath rest
  moved : g.moved = rest.any (·.isMovable modulePath)
  standardLine : t.line home ≤ g.standardLine

theorem Gathering.Begun.stays {seen : List Spec} {s : Spec} (h : g.Begun modulePath home t seen)
    (standard : s.isStandard modulePath)
    (near : seen.getLast? = none ∨ t.line s.pos ≤ g.lastLine + 1)
    (grown : g' = { g with
      standard := g.standard ++ [s]
      lastLine := t.line s.pos
      standardLine := max g.standardLine (t.line s.stop) }) :
    g'.Begun modulePath home t (seen ++ [s]) := by
  subst grown
  refine ⟨⟨?_, ?_, nofun⟩, ?_, h.inFirst, congrArg (· ++ [s]) h.standard, h.other, h.moved,
    Nat.le_trans h.standardLine (Nat.le_max_left ..)⟩
  · exact List.forall_mem_append.mpr ⟨h.run.standard, by simpa using standard⟩
  · refine List.isChain_append.mpr ⟨h.run.near, .singleton s, ?_⟩
    rintro l isLast _ ⟨⟩
    rw [← h.lastLine l isLast]
    rcases near with none | near
    · rw [none] at isLast
      nomatch isLast
    · exact near
  · simp

/-- The first import that leaves the first run ends it. -/
theorem Gathering.Begun.leaves {seen rest : List Spec} {s : Spec}
    (h : g.Begun modulePath home t seen) (far : g.inFirst → s.isStandard modulePath →
      seen.getLast?.isSome ∧ g.lastLine + 1 < t.line s.pos)
    (shelved : g.Shelves modulePath home (s :: rest) g') :
    g'.Done modulePath home t seen (s :: rest) := by
  refine ⟨⟨h.run.standard, h.run.near, ?_⟩, ?_, ?_, ?_, ?_⟩
  · rintro _ ⟨⟩ standard
    obtain ⟨some, far⟩ := far h.inFirst standard
    obtain ⟨l, isLast⟩ := Option.isSome_iff_exists.mp some
    exact ⟨l, isLast, h.lastLine l isLast ▸ far⟩
  · rw [shelved.standard, h.standard]
  · rw [shelved.other, h.other, List.nil_append]
  · rw [shelved.moved, h.moved, Bool.false_or]
  · exact shelved.standardLine ▸ h.standardLine

theorem Gathering.Begun.done {seen : List Spec} (h : g.Begun modulePath home t seen) :
    g.Done modulePath home t seen [] :=
  ⟨h.run, by simp [h.standard, movedTo], h.other, h.moved, h.standardLine⟩

/-- Sorting out the imports behind the first run. -/
theorem gatherSpecs_shelves {close : Option Nat} {prev : Option Spec} {rest : List Spec}
    (ended : g.inFirst = false) (imports : ∀ s ∈ rest, s.IsImport) :
    Gives (gatherSpecs modulePath home close prev rest g) t fun g' t' =>
      g.Shelves modulePath home rest g' ∧ t'.starts.Sublist t.starts := by
  induction rest generalizing prev g t with
  | nil => exact .pure ⟨.refl, .refl _⟩
  | cons s rest ih =>
    obtain ⟨here, behind⟩ := List.forall_mem_cons.mp imports
    refine .bind (gatherSpec_step here) fun g₁ t₁ step => ?_
    cases step with
    | stays inFirst =>
      rw [ended] at inFirst
      nomatch inFirst
    | leaves _ ended' shelved fewer =>
      refine (ih ended' behind).mono fun g' t' ⟨shelved', fewer'⟩ => ?_
      exact ⟨shelved.cons shelved', fewer'.trans fewer⟩

/-- Sorting out all imports of a group. -/
theorem gatherSpecs_done {close : Option Nat} {seen specs : List Spec}
    (begun : g.Begun modulePath home t seen) (imports : ∀ s ∈ specs, s.IsImport) :
    Gives (gatherSpecs modulePath home close seen.getLast? specs g) t fun g' t' =>
      t'.starts.Sublist t.starts ∧ ∃ first rest, seen ++ specs = first ++ rest ∧
        g'.Done modulePath home t first rest := by
  induction specs generalizing seen g with
  | nil => exact .pure ⟨.refl _, seen, [], rfl, begun.done⟩
  | cons s specs ih =>
    obtain ⟨here, behind⟩ := List.forall_mem_cons.mp imports
    refine .bind (gatherSpec_step here) fun g₁ t₁ step => ?_
    cases step with
    | stays inFirst standard near grown same =>
      subst same
      have next := ih (begun.stays standard near grown) behind
      rw [List.getLast?_concat, List.append_assoc] at next
      exact next
    | leaves far ended shelved fewer =>
      refine (gatherSpecs_shelves ended behind).mono fun g' t' ⟨shelved', fewer'⟩ => ?_
      exact ⟨fewer'.trans fewer, seen, s :: specs, rfl, begun.leaves far (shelved.cons shelved')⟩

/-- What gathering makes of the imports of a group with its keyword at `home`, as the lines `t`
become `t'`. -/
structure Gathered (modulePath : Option String) (home : Nat) (t t' : LineTable)
    (specs specs' first rest : List Spec) : Prop where
  parts : specs = first ++ rest
  run : FirstRun modulePath t first rest
  result : specs' =
    if rest.any (·.isMovable modulePath) then
      sortRuns t' (first ++ movedTo modulePath home rest ++ unmoved modulePath rest)
    else first ++ movedTo modulePath home rest ++ unmoved modulePath rest
  /-- A blank line is left or made behind the standard library. -/
  gap : rest.any (·.isMovable modulePath) → ∀ s ∈ (unmoved modulePath rest).head?,
    home + 2 ≤ s.pos → t'.line home + 1 < t'.line s.pos
  /-- No line is broken before that. -/
  near : ∀ a b, (∀ s ∈ (unmoved modulePath rest).head?, b + 2 ≤ s.pos) →
    t.line b ≤ t.line a + 1 → t'.line b ≤ t'.line a + 1

/-- What is moved is of the standard library. -/
theorem Gathering.Done.standard_ne_nil {first rest : List Spec}
    (done : g.Done modulePath home t first rest) (moved : rest.any (·.isMovable modulePath)) :
    g.standard ≠ [] := by
  obtain ⟨m, inRest, movable⟩ := List.any_eq_true.mp moved
  have isStandard : m.restamp home ∈ g.standard := by
    rw [done.standard]
    exact List.mem_append_right _ (List.mem_map_of_mem (List.mem_filter.mpr ⟨inRest, movable⟩))
  exact List.ne_nil_of_mem isStandard

/-- Imports that are sorted out are gathered, where lines are broken only before the first of the
other imports. -/
theorem Gathered.of_done {specs first rest : List Spec} {t₁ : LineTable} (ordered : t'.Ordered)
    (parts : specs = first ++ rest) (done : g.Done modulePath home t first rest)
    (gap : rest.any (·.isMovable modulePath) → ∀ s ∈ g.other.head?,
      home + 2 ≤ s.pos → t'.line home + 1 < t'.line s.pos)
    (near : ∀ a b, t.line b ≤ t.line a + 1 → t₁.line b ≤ t₁.line a + 1)
    (same : ∀ a, (∀ s ∈ g.other.head?, a + 2 ≤ s.pos) → t'.line a = t₁.line a) :
    Gathered modulePath home t t' specs
      (if g.moved then sortRuns t' (g.standard ++ g.other) else g.standard ++ g.other)
      first rest := by
  refine ⟨parts, done.run, ?_, ?_, ?_⟩
  · rw [done.moved, done.standard, done.other]
  · rwa [done.other] at gap
  · intro a b before isNear
    rw [← done.other] at before
    rcases Nat.le_total b a with le | le
    · exact Nat.le_succ_of_le (ordered.line_mono le)
    · rw [same b before, same a fun s mem => Nat.le_trans (by omega) (before s mem)]
      exact near a b isNear

theorem gather_gives {n : Nat} {d : GenDecl} (kw : d.kwPos.Within n)
    (fits : ∀ s ∈ d.specs, s.Fits n True) (cover : t.Over n) :
    Gives (gather modulePath d) t fun d' t' => t'.Over n ∧ ∃ specs first rest,
      d' = { d with specs } ∧
        Gathered modulePath d.kwPos.start t t' d.specs specs first rest := by
  refine .get_bind ?_
  have begun : Gathering.Begun modulePath d.kwPos.start t []
      ⟨[], [], true, 0, t.line d.kwPos.start, false⟩ :=
    ⟨⟨by simp, .nil, nofun⟩, nofun, rfl, rfl, rfl, rfl, Nat.le_refl _⟩
  have begun_of : Gathering.Of n True [] ⟨[], [], true, 0, t.line d.kwPos.start, false⟩ :=
    ⟨by simp, .refl _⟩
  refine .bind ((gatherSpecs_done begun fun s mem => (fits s mem).isImport trivial).and
    (.of_yields (gatherSpecs_safe kw.1 (fun _ => rfl) fits begun_of t cover))) ?_
  rintro g t₁ ⟨⟨fewer, first, rest, parts, done⟩, -, cover₁⟩
  extract_lets specs finish
  have finish_gives : ∀ t₂, t₂.Over n →
      (rest.any (·.isMovable modulePath) → ∀ s ∈ g.other.head?,
        d.kwPos.start + 2 ≤ s.pos → t₂.line d.kwPos.start + 1 < t₂.line s.pos) →
      (∀ a, (∀ s ∈ g.other.head?, a + 2 ≤ s.pos) → t₂.line a = t₁.line a) →
      Gives (finish ()) t₂ fun d' t' => t'.Over n ∧ ∃ specs first rest,
        d' = { d with specs } ∧
          Gathered modulePath d.kwPos.start t t' d.specs specs first rest := by
    intro t₂ cover₂ gap same
    refine .get_bind (.pure ⟨cover₂, _, first, rest, rfl, ?_⟩)
    exact .of_done cover₂.ordered parts done gap
      (fun _ _ => cover.ordered.line_le_add_of_sublist cover₁.ordered fewer) same
  split
  · rename_i f others _ isOther
    refine .get_bind ?_
    split
    · refine .bind (LineTable.insertBreak_gives cover₁) ?_
      rintro - _ ⟨rfl, cover'⟩
      refine .bind (LineTable.insertBreak_gives cover') ?_
      rintro - t₂ ⟨rfl, cover₂⟩
      refine finish_gives _ cover₂ ?_ ?_
      · intro _ s mem far
        rw [isOther] at mem
        cases mem
        exact LineTable.line_blank cover₂.ordered far
          (LineTable.mem_insertStart.mpr (.inl rfl))
          (LineTable.mem_insertStart.mpr (.inr (LineTable.mem_insertStart.mpr (.inl rfl))))
      · intro a before
        have far := before f (by rw [isOther]; rfl)
        rw [LineTable.line_insertStart (by omega), LineTable.line_insertStart (by omega)]
    · rename_i apart
      refine finish_gives _ cover₁ ?_ fun _ _ => rfl
      intro _ s mem _
      rw [isOther] at mem
      cases mem
      have fewer := cover.ordered.line_le_of_sublist cover₁.ordered fewer d.kwPos.start
      have below := done.standardLine
      omega
  · rename_i none
    refine finish_gives _ cover₁ ?_ fun _ _ => rfl
    intro moved s mem _
    obtain ⟨a, as, standard⟩ := List.exists_cons_of_ne_nil (done.standard_ne_nil moved)
    obtain ⟨bs, other⟩ := List.head?_eq_some_iff.mp mem
    exact (none a as s bs standard other).elim

end Imports

end GoLayout
