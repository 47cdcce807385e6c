import GoLayout.Proofs.Settle.Block
import GoLayout.Proofs.Tidy.Gathering

/-!
What gathering imports does to the lines of a file. Lines are joined behind the keyword of the group
only, and broken only where an import begins or at the byte before that.
-/

namespace GoLayout

variable {n : Nat}

namespace LineTable

/-- The second table differs from `lo` on, and what it has in addition are starts at the offsets
of `P`. -/
structure Shifts (n lo : Nat) (P : Nat → Prop) (t t' : LineTable) : Prop where
  cover : t'.Over n
  added : ∀ s ∈ t'.starts, s ∈ t.starts ∨ P s
  kept : Agree (· < lo) t t'

variable {t t' t'' : LineTable} {lo lo' : Nat} {P P' Z : Nat → Prop}

namespace Shifts

theorem refl (h : t.Over n) : Shifts n lo P t t := ⟨h, fun _ => .inl, .refl t⟩

theorem trans (first : Shifts n lo P t t') (second : Shifts n lo P t' t'') :
    Shifts n lo P t t'' where
  cover := second.cover
  added := fun s mem => (second.added s mem).elim (first.added s) .inr
  kept := first.kept.trans second.kept

theorem mono (h : Shifts n lo P t t') (low : lo' ≤ lo) (wider : ∀ s, P s → P' s) :
    Shifts n lo' P' t t' :=
  ⟨h.cover, fun s mem => (h.added s mem).imp_right (wider s),
    h.kept.mono fun _ below => Nat.lt_of_lt_of_le below low⟩

theorem of_loses (h : t.Loses n Z t') (behind : ∀ s, Z s → lo ≤ s) : Shifts n lo P t t' :=
  ⟨h.cover, fun s mem => .inl (h.fewer s mem), h.agree.mono fun s below within => by
    have := behind s within
    omega⟩

end Shifts

theorem insertBreak_shifts {o : Nat} (h : t.Over n) (allowed : P o) (low : lo ≤ o) :
    Gives (insertBreak o) t fun _ t' => t.Shifts n lo P t' := by
  refine (insertBreak_gains (Z := (· = o)) h rfl).mono ?_
  rintro - t' ⟨gains, -⟩
  refine ⟨gains.cover, fun s mem => ?_, gains.agree.mono ?_⟩
  · rcases gains.only s mem with old | rfl
    · exact .inl old
    · exact .inr allowed
  · rintro s below rfl
    omega

/-- The line of `b` is joined with the one before it, which begins behind `a`. -/
theorem mergeLine_loses {a b : Nat} (h : t.Over n) (lt : t.line a < t.line b) :
    Gives (mergeLine (t.line b - 1)) t fun _ t' => t.Loses n (a < ·) t' := by
  intro _ t' run
  by_cases fits : 0 < t.line b - 1 ∧ t.line b - 1 < t.count
  · have cover := Gives.of_yields (mergeLine_yields h fits.1 fits.2) _ _ run
    rw [mergeLine_eq_ok fits.1 fits.2] at run
    cases run
    refine ⟨cover.1, fun s mem => (List.eraseIdx_sublist ..).subset mem, fun s mem out => ?_⟩
    obtain ⟨before, behind, starts, length, low, high⟩ := h.ordered.cut a
    change s ∈ t.starts.eraseIdx _
    rw [starts, List.eraseIdx_append_of_length_le (by omega)]
    rw [starts] at mem
    rcases List.mem_append.mp mem with mem | mem
    · exact List.mem_append_left _ mem
    · exact absurd (high s mem) out
  · rw [mergeLine_eq_error (by omega)] at run
    nomatch run

end LineTable

open LineTable (Shifts)

namespace Imports

variable {modulePath : Option String} {home : Nat} {t : LineTable} {g : Gathering} {s : Spec}
  {specs : List Spec}

/-- What sorting out imports may add to those sorted out already: the imports as they are, and
those of the standard library also at `home`. -/
structure Gathering.Takes (home : Nat) (specs : List Spec) (g g' : Gathering) : Prop where
  standard : ∀ s ∈ g'.standard, s ∈ g.standard ∨ s ∈ specs ∨ ∃ r ∈ specs, s = r.restamp home
  other : ∀ s ∈ g'.other, s ∈ g.other ∨ s ∈ specs

theorem Gathering.Takes.cons {g g' g'' : Gathering} (first : g.Takes home [s] g')
    (behind : g'.Takes home specs g'') : g.Takes home (s :: specs) g'' where
  standard := by
    intro s' mem
    rcases behind.standard s' mem with mem | mem | ⟨r, mem, same⟩
    · rcases first.standard s' mem with mem | mem | ⟨r, mem, same⟩
      · exact .inl mem
      · exact .inr (.inl (List.mem_singleton.mp mem ▸ List.mem_cons_self))
      · exact .inr (.inr ⟨r, List.mem_singleton.mp mem ▸ List.mem_cons_self, same⟩)
    · exact .inr (.inl (List.mem_cons_of_mem _ mem))
    · exact .inr (.inr ⟨r, List.mem_cons_of_mem _ mem, same⟩)
  other := by
    intro s' mem
    rcases behind.other s' mem with mem | mem
    · refine (first.other s' mem).imp_right fun mem => ?_
      rw [List.mem_singleton.mp mem]
      exact List.mem_cons_self
    · exact .inr (List.mem_cons_of_mem _ mem)

theorem Gathering.Takes.toStandard {g' : Gathering} {s' : Spec} (same : s' = s ∨ s' = s.restamp home)
    (standard : g'.standard = g.standard ++ [s']) (other : g'.other = g.other) :
    g.Takes home [s] g' where
  standard := by
    intro r mem
    rw [standard] at mem
    refine (List.mem_append.mp mem).imp_right fun mem => ?_
    rw [List.mem_singleton.mp mem]
    exact same.imp List.mem_singleton.mpr fun copied => ⟨s, List.mem_cons_self, copied⟩
  other := fun _ mem => .inl (other ▸ mem)

theorem Gathering.Takes.toOther {g' : Gathering} (standard : g'.standard = g.standard)
    (other : g'.other = g.other ++ [s]) : g.Takes home [s] g' where
  standard := fun _ mem => .inl (standard ▸ mem)
  other := fun _ mem => List.mem_append.mp (other ▸ mem)

theorem Gathering.Takes.of_shelves {g' : Gathering} (h : g.Shelves modulePath home [s] g') :
    g.Takes home [s] g' := by
  rcases h.lists with ⟨standard, other⟩ | ⟨standard, other⟩
  · exact .toStandard (.inr rfl) standard other
  · exact .toOther standard other

/-- For an import that is moved only lines behind the import before it are joined, and the first one
is not moved. -/
theorem gatherSpec_loses {prev : Option Spec} {next : Option Nat} (cover : t.Over n)
    (ahead : ∀ p ∈ prev, home ≤ p.stop) (begun : prev = none → g.inFirst) :
    Gives (gatherSpec modulePath home prev next s g) t fun g' t' =>
      t.Loses n (home < ·) t' ∧ g.Takes home [s] g' := by
  refine gatherSpec_sorting.gives fun x sorting => ?_
  cases sorting with
  | stays => exact .pure ⟨.refl cover, .toStandard (.inl rfl) rfl rfl⟩
  | leaves left => exact .pure ⟨.refl cover, .of_shelves left.shelved⟩
  | joins left later alone =>
    obtain ⟨p, isPrev⟩ := Option.ne_none_iff_exists'.mp fun none => later none (begun none)
    refine .bind (LineTable.mergeLine_loses cover (alone p isPrev)) fun _ t₁ loses => .pure ⟨?_, ?_⟩
    · exact loses.mono fun s low => Nat.lt_of_le_of_lt (ahead p isPrev) low
    · exact .of_shelves left.shelved

theorem gatherSpecs_loses {close : Option Nat} {prev : Option Spec} (cover : t.Over n)
    (behind : ∀ s ∈ specs, home ≤ s.stop) (ahead : ∀ p ∈ prev, home ≤ p.stop)
    (begun : prev = none → g.inFirst) :
    Gives (gatherSpecs modulePath home close prev specs g) t fun g' t' =>
      t.Loses n (home < ·) t' ∧ g.Takes home specs g' := by
  induction specs generalizing prev g t with
  | nil => exact .pure ⟨.refl cover, fun _ => .inl, fun _ => .inl⟩
  | cons s specs ih =>
    obtain ⟨here, behind⟩ := List.forall_mem_cons.mp behind
    refine .bind (gatherSpec_loses cover ahead begun) fun g₁ t₁ ⟨loses, takes⟩ => ?_
    have ahead' : ∀ p ∈ some s, home ≤ p.stop := fun p same => Option.some.inj same ▸ here
    refine (ih loses.cover behind ahead' nofun).mono fun g' t' ⟨loses', takes'⟩ => ?_
    exact ⟨loses.trans loses', takes.cons takes'⟩

/-- Gathering joins lines behind the keyword, and breaks them where an import begins. The imports
stay behind the keyword, each where one was before or at the keyword. -/
theorem gather_shifts {P : Nat → Prop} {Q : Spec → Prop} {d : GenDecl} (cover : t.Over n)
    (copies : ∀ s pos, s.IsImport → Q s → Q (s.restamp pos))
    (specs : ∀ s ∈ d.specs, s.IsImport ∧ (d.kwPos.start ≤ s.pos ∧ s.pos ≤ s.stop) ∧
      (P s.pos ∧ P (s.pos - 1)) ∧ Q s) :
    Gives (gather modulePath d) t fun d' t' => t.Shifts n (d.kwPos.start - 1) P t' ∧
      ∃ specs, d' = { d with specs } ∧ ∀ s ∈ specs, s.IsImport ∧ Q s ∧
        (s.pos = d.kwPos.start ∨ s.pos ∈ d.specs.map Spec.pos) := by
  refine .get_bind (.bind (gatherSpecs_loses cover (fun s mem => ?_) nofun fun _ => rfl) ?_)
  · obtain ⟨-, ⟨low, wide⟩, -⟩ := specs s mem
    exact Nat.le_trans low wide
  rintro g t₁ ⟨loses, takes⟩
  extract_lets listed finish
  have others : ∀ s ∈ g.other, s ∈ d.specs := fun s mem =>
    (takes.other s mem).resolve_left (by simp)
  have ofListed : ∀ s ∈ listed, s.IsImport ∧ Q s ∧
      (s.pos = d.kwPos.start ∨ s.pos ∈ d.specs.map Spec.pos) := by
    have own : ∀ s ∈ d.specs, s.IsImport ∧ Q s ∧
        (s.pos = d.kwPos.start ∨ s.pos ∈ d.specs.map Spec.pos) := fun s mem =>
      ⟨(specs s mem).1, (specs s mem).2.2.2, .inr (List.mem_map_of_mem mem)⟩
    refine List.forall_mem_append.mpr ⟨fun s mem => ?_, fun s mem => own s (others s mem)⟩
    rcases takes.standard s mem with none | kept | ⟨r, found, rfl⟩
    · nomatch none
    · exact own s kept
    · obtain ⟨isImport, -, -, holds⟩ := specs r found
      exact ⟨isImport.restamp _, copies r _ isImport holds, .inl (isImport.pos_restamp _)⟩
  have finish_gives : ∀ t₂, t.Shifts n (d.kwPos.start - 1) P t₂ → Gives (finish ()) t₂
      fun d' t' => t.Shifts n (d.kwPos.start - 1) P t' ∧
        ∃ specs, d' = { d with specs } ∧ ∀ s ∈ specs, s.IsImport ∧ Q s ∧
          (s.pos = d.kwPos.start ∨ s.pos ∈ d.specs.map Spec.pos) := by
    intro t₂ shifts
    refine .get_bind (.pure ⟨shifts, _, rfl, ?_⟩)
    split
    · intro s mem
      obtain ⟨isImport, holds⟩ := sortRuns_forall (P := fun s => s.IsImport ∧ Q s)
        (fun s pos h => ⟨h.1.restamp pos, copies s pos h.1 h.2⟩)
        (fun s mem => ⟨(ofListed s mem).1, (ofListed s mem).2.1⟩) s mem
      refine ⟨isImport, holds, ?_⟩
      obtain ⟨s', found, same⟩ := List.mem_map.mp
        (pos_mem_of_mem_sortRuns (fun s mem => (ofListed s mem).1) s mem)
      exact same ▸ (ofListed s' found).2.2
    · exact ofListed
  have shifts : t.Shifts n (d.kwPos.start - 1) P t₁ := .of_loses loses fun s low => by
    have low : d.kwPos.start < s := low
    omega
  split
  · rename_i first others' _ isOther
    refine .get_bind ?_
    split
    · obtain ⟨-, ⟨low, -⟩, ⟨here, before⟩, -⟩ := specs first (others first (isOther ▸ List.mem_cons_self))
      refine .bind (LineTable.insertBreak_shifts shifts.cover before (Nat.sub_le_sub_right low 1)) ?_
      intro _ t₂ shifts₂
      refine .bind (LineTable.insertBreak_shifts shifts₂.cover here (Nat.le_trans (Nat.sub_le _ 1) low)) ?_
      exact fun _ t₃ shifts₃ => finish_gives t₃ ((shifts.trans shifts₂).trans shifts₃)
    · exact finish_gives t₁ shifts
  · exact finish_gives t₁ shifts

end Imports

end GoLayout
