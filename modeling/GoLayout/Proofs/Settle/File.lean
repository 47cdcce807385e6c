import GoLayout.Proofs.Comment.Doc
import GoLayout.Proofs.Settle.Finish

/-!
A whole file while it is tidied. Its declarations stand as they were read, one ahead of the other,
until their nodes are tidied, and in the tidied file all nodes are tidy.
-/

namespace GoLayout

variable {n : Nat} {O : Nat → Prop} {items : List Span} {src : String} {f : SourceFile}
  {opts : Options}

open LineTable (Shifts)
open Landmark (InOrder Clear)

namespace Gives

variable {α β σ : Type} {s s' : σ} {R : β → σ → Prop}

theorem set_bind {f : PUnit → EStateM LineError σ β} (h : Gives (f ⟨⟩) s' R) :
    Gives (set s' >>= f) s R := h

theorem modify_bind {g : σ → σ} {f : PUnit → EStateM LineError σ β} (h : Gives (f ⟨⟩) (g s) R) :
    Gives (modify g >>= f) s R := h

end Gives

/-! ### Comments -/

namespace CommentGroup

theorem rising_of_apart {groups : List CommentGroup}
    (wide : ∀ c ∈ groups.flatMap toList, c.span.start ≤ c.span.stop)
    (apart : (groups.flatMap toList).Pairwise fun c c' => c.span.stop ≤ c'.span.start) :
    Rising groups := by
  obtain ⟨within, across⟩ := List.pairwise_flatMap.mp apart
  have first : ∀ g ∈ groups, g.first.span.start ≤ g.first.span.stop := fun g mem =>
    wide _ (List.mem_flatMap.mpr ⟨g, mem, List.mem_cons_self⟩)
  refine ⟨fun g mem => ?_, across.imp_of_mem fun {g g'} mem _ before => ?_⟩
  · unfold stop
    cases isLast : g.rest.getLast? with
    | none => exact first g mem
    | some last =>
      have inRest := List.mem_of_getLast? isLast
      have before := (List.pairwise_cons.mp (within g mem)).1 last inRest
      have := wide last (List.mem_flatMap.mpr ⟨g, mem, List.mem_cons_of_mem _ inRest⟩)
      exact Nat.le_trans (first g mem) (Nat.le_trans before this)
  · exact Nat.le_trans (first g mem) (before _ List.mem_cons_self _ List.mem_cons_self)

theorem span_spaced (c : Comment) : c.spaced.span = c.span := by
  unfold Comment.spaced
  split
  · split <;> rfl
  · rfl

theorem start_spaced (g : CommentGroup) : g.spaced.start = g.start := by
  unfold spaced
  split
  · exact congrArg Span.start (span_spaced g.first)
  · rfl

theorem stop_spaced (g : CommentGroup) : g.spaced.stop = g.stop := by
  unfold spaced
  split
  · simp only [stop, map, List.getLast?_map]
    cases g.rest.getLast? with
    | none => exact congrArg Span.stop (span_spaced g.first)
    | some last => exact congrArg Span.stop (span_spaced last)
  · rfl

theorem Rising.spaced {groups : List CommentGroup} (h : Rising groups) :
    Rising (groups.map (·.spaced)) where
  forward := by
    refine List.forall_mem_map.mpr fun g mem => ?_
    rw [start_spaced, stop_spaced]
    exact h.forward g mem
  ascending := by
    refine List.pairwise_map.mpr (h.ascending.imp fun {g g'} le => ?_)
    rw [start_spaced, start_spaced]
    exact le

end CommentGroup

/-! ### Declarations -/

/-- Declarations stand among all `items`, one ahead of the other. -/
structure Decl.AllStand (O : Nat → Prop) (ok : Landmark → Prop) (items : List Span)
    (ds : List Decl) : Prop where
  each : ∀ d ∈ ds, d.Stands O ok items
  ahead : ds.Pairwise Decl.Ahead

variable {ok : Landmark → Prop}

theorem Decl.AllStand.replace {front back : List Decl} {d d' : Decl}
    (h : AllStand O ok items (front ++ d :: back)) (stands : d'.Stands O ok items)
    (stays : d.Stays d') : AllStand O ok items (front ++ d' :: back) := by
  obtain ⟨ofFront, ofBack⟩ := List.forall_mem_append.mp h.each
  obtain ⟨inFront, inBack, across⟩ := List.pairwise_append.mp h.ahead
  obtain ⟨first, inBack⟩ := List.pairwise_cons.mp inBack
  refine ⟨?_, List.pairwise_append.mpr ⟨inFront, .cons (fun b mem => ?_) inBack, fun a mem => ?_⟩⟩
  · refine List.forall_mem_append.mpr ⟨ofFront, List.forall_mem_cons.mpr ⟨stands, ?_⟩⟩
    exact (List.forall_mem_cons.mp ofBack).2
  · exact (first b mem).of_stays stays (.refl b)
  · obtain ⟨here, behind⟩ := List.forall_mem_cons.mp (across a mem)
    exact List.forall_mem_cons.mpr ⟨here.of_stays (.refl a) stays, behind⟩

open Tidy in
/-- A pass over all declarations of a file, each of which it leaves standing. -/
theorem SourceFile.pass_stands {step : Decl → Relining Decl}
    (stays : ∀ d t, t.Over n → d.Stands O ok items → Gives (step d) t fun d' t' =>
      t.Shifts n 0 (Span.Free O items) t' ∧ d'.Stands O ok items ∧ d.Stays d')
    (cover : f.lines.Over n) (h : Decl.AllStand O ok items f.decls) :
    Gives (replace id step [] f.decls) f fun _ f' =>
      (f.lines.Shifts n 0 (Span.Free O items) f'.lines ∧ Decl.AllStand O ok items f'.decls) ∧
        f'.name = f.name ∧ f'.comments = f.comments := by
  refine (replace_gives (I := fun done rest t =>
    f.lines.Shifts n 0 (Span.Free O items) t ∧ Decl.AllStand O ok items (done ++ rest)) ?_ (by simp)
    ⟨.refl cover, h⟩).mono ?_
  · rintro done d rest t ⟨shifts, stand⟩
    have here : d.Stands O ok items := stand.each d (by simp)
    refine (stays d t shifts.cover here).mono fun d' t' ⟨shifts', stands, stays⟩ => ?_
    refine ⟨shifts.trans shifts', ?_⟩
    rw [List.append_assoc]
    exact stand.replace stands stays
  · rintro - f' ⟨⟨shifts, stand⟩, same⟩
    rw [List.append_nil] at stand
    exact ⟨⟨shifts, stand⟩, same⟩

/-! ### The whole pass -/

open Tidy in
theorem SourceFile.tidy_settles_of {k : Setting} (extra : k.extra = opts.extra)
    (comments : k.comments = f.comments.map (·.spaced)) (rising : CommentGroup.Rising k.comments)
    (ends : ∀ g ∈ f.comments, ∀ c ∈ g.toList, O c.span.stop) (cover : f.lines.Over n)
    (clean : ∀ s ∈ f.lines.starts, O s) (stand : Decl.AllStand O (Clear O k) items f.decls) :
    Gives (SourceFile.tidy opts) f fun _ f' =>
      AllTidy k f'.lines f'.nodes ∧ f'.comments = k.comments := by
  have gathers : ∀ d t, t.Over n → d.Stands O (Clear O k) items →
      Gives (gatherImports opts d) t fun d' t' => t.Shifts n 0 (Span.Free O items) t' ∧
        d'.Stands O (Clear O k) items ∧ d.Stays d' := fun d t cover stands =>
    (gatherImports_stays cover stands).mono fun _ _ ⟨shifts, rest⟩ =>
      ⟨shifts.mono (Nat.zero_le _) fun _ free => free, rest⟩
  refine .get_bind (.bind (pass_stands gathers cover stand) ?_)
  rintro - f₁ ⟨⟨shifts₁, stand₁⟩, -, comments₁⟩
  refine .get_bind (.get_bind (.bind (pass_stands
    (fun d t cover stands => flatten_stays cover stands) shifts₁.cover stand₁) ?_))
  rintro - f₂ ⟨⟨shifts₂, stand₂⟩, -, comments₂⟩
  have comments₂ : f₂.comments = f.comments := comments₂.trans comments₁
  refine .get_bind ?_
  extract_lets merged decls spaced
  have ends₂ : ∀ g ∈ f₂.comments, ∀ c ∈ g.toList, O c.span.stop := by
    rw [comments₂]
    exact ends
  obtain ⟨each, ahead⟩ := Groups.merge_stands f₂.lines ends₂ stand₂.each stand₂.ahead
  have each : ∀ m ∈ merged, m.decl.Stands O (Clear O k) items := fun m mem =>
    each m (List.mem_of_mem_filter mem)
  have ahead : merged.Pairwise fun m m' => m.decl.Ahead m'.decl := ahead.filter _
  have separated : Gives (Groups.separate f₂.comments f₂.name.span.stop decls) f₂.lines fun _ t' =>
      f₂.lines.Shifts n 0 (Span.Free O items) t' :=
    Groups.separateFrom_shifts shifts₂.cover nofun
      (List.forall_mem_map.mpr fun m mem => (each m mem).free_stop)
  refine .set_bind (.bind (onLines_gives separated) ?_)
  rintro - f₃ ⟨shifts₃, same⟩
  have spaced_eq : spaced = k.comments := by rw [comments, ← comments₂]
  refine .modify_bind ((replace_gives (I := Finishing n O k items) ?_ ?_ ?_).mono ?_)
  · rw [spaced_eq]
    exact fun _ _ _ _ => Finishing.step extra rising
  · rw [same]
    rfl
  · have shifts := (shifts₁.trans shifts₂).trans shifts₃
    refine ⟨shifts₃.cover, fun s mem within => ?_, each, ahead, fun _ => False, nofun,
      fun _ _ _ => .nil⟩
    rcases shifts.added s mem with old | free
    · exact clean s old
    · obtain ⟨i, listed, inside⟩ := within
      obtain ⟨m, found, own⟩ := List.mem_flatMap.mp listed
      exact free ⟨i, (each m found).own own, inside⟩
  · rintro - f₄ ⟨⟨cover₄, -, -, -, Z, -, settled⟩, -, comments₄⟩
    exact ⟨settled _ cover₄ (.refl _), comments₄.trans spaced_eq⟩

namespace SourceFile

/-- Where a line starts or a comment ends. No token ends there. -/
def AtBreak (f : SourceFile) (s : Nat) : Prop :=
  s ∈ f.lines.starts ∨ ∃ g ∈ f.comments, ∃ c ∈ g.toList, c.span.stop = s

/-- What a file goes by while it is tidied. -/
def setting (f : SourceFile) (opts : Options) : Setting :=
  ⟨opts.extra, f.comments.map (·.spaced), fun d => .stmt (.decl d) ∈ f.nodes⟩

theorem inOrder_clear (opts : Options) (read : SourceFile.parse src = .ok f) :
    InOrder (Clear f.AtBreak (f.setting opts)) src.utf8ByteSize 0 f.landmarks := by
  obtain ⟨_, header⟩ := readsHeader_of_parse read
  have clear : ∀ t ∈ (Scan.ofSource src).tokens, t.span.start < t.span.stop →
      ¬ f.AtBreak t.span.stop := by
    rintro t mem wide (isStart | ⟨g, inFile, c, inGroup, same⟩)
    · rw [header.lines] at isStart
      exact Scan.stop_not_mem_starts header.faultless t mem wide isStart
    · refine Scan.stop_ne_stop_of_comment header.faultless t mem wide c ?_ same
      rw [← header.allComments]
      exact List.mem_flatMap.mpr ⟨g, inFile, inGroup⟩
  refine (inOrder_of_parse (P := fun s => ¬ f.AtBreak s.stop) read clear).imp fun l mem holds => ?_
  cases l with
  | token s => exact holds
  | entry d => exact ⟨f.enters d mem, holds⟩
  | place | missing => trivial

theorem rising_of_parse (read : SourceFile.parse src = .ok f) : CommentGroup.Rising f.comments := by
  obtain ⟨_, header⟩ := readsHeader_of_parse read
  have all : f.comments.flatMap CommentGroup.toList = (Scan.ofSource src).comments :=
    header.allComments
  refine CommentGroup.rising_of_apart ?_ ?_
  · rw [all]
    exact fun c mem => Nat.le_of_lt (Scan.comments_solid c mem)
  · rw [all]
    exact Scan.comments_apart

/-- All nodes of a tidied file are tidy. -/
theorem tidy_settles (opts : Options) (read : SourceFile.parse src = .ok f) :
    Yields (SourceFile.tidy opts) f fun _ f' => AllTidy (f.setting opts) f'.lines f'.nodes ∧
      f'.comments = f.comments.map (·.spaced) := by
  obtain ⟨cover, kinds⟩ := over_of_parse read
  obtain ⟨real, -, -, name⟩ := inOrder_clear opts read
  obtain ⟨real', -, low, decls⟩ := name
  have behind : 0 < f.name.landmark.stop := Nat.zero_lt_of_lt real'
  have stand : Decl.AllStand f.AtBreak (Clear f.AtBreak (f.setting opts))
      (f.decls.flatMap Decl.items) f.decls :=
    ⟨Decl.stands_of_inOrder decls kinds, (Decl.ahead_of_inOrder behind decls).1⟩
  have settles : Gives (SourceFile.tidy opts) f fun _ f' =>
      AllTidy (f.setting opts) f'.lines f'.nodes ∧ f'.comments = (f.setting opts).comments :=
    tidy_settles_of rfl rfl (rising_of_parse read).spaced
      (fun g inFile c inGroup => .inr ⟨g, inFile, c, inGroup, rfl⟩) cover.lines (fun _ => .inl) stand
  obtain ⟨_, f', run, -⟩ := tidy_yields opts cover
  exact ⟨_, f', run, settles _ _ run⟩

end SourceFile

end GoLayout
