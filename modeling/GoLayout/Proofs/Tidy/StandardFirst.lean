import GoLayout.Proofs.Tidy.Constants
import GoLayout.Proofs.Tidy.ImportOrder
import GoLayout.Proofs.Words.Imports

/-!
The standard library comes first. Of the imports of a tidied declaration none of another module
stands before one of the standard library, but for those with a name or a comment behind them,
which are not moved. This holds of a declaration whose keyword has its place in the source. Where a
group of one import was flattened below a comment, its keyword is at that import; what is gathered
later is put before no other import then, and is mixed with them.
-/

namespace GoLayout

/-! ### Declarations of imports -/

/-- What holds of a declaration if it is one of imports. -/
def Decl.OfImports (P : GenDecl → Prop) : Decl → Prop
  | .gen d => d.kind = .imports → P d
  | .func _ => True

instance {P : GenDecl → Prop} [DecidablePred P] : DecidablePred (Decl.OfImports P)
  | .gen d => inferInstanceAs (Decidable (d.kind = .imports → P d))
  | .func _ => isTrue trivial

/-- The paths and names of the imports of a declaration that have a comment behind them. -/
def Decl.commentedKeys : Decl → List (String × String)
  | .gen d =>
    if d.kind = .imports then Imports.keys Spec.hasComment d.specs else []
  | .func _ => []

theorem Decl.commentedKeys_of_imports {d : GenDecl} (imports : d.kind = .imports) :
    (Decl.gen d).commentedKeys = Imports.keys Spec.hasComment d.specs := if_pos imports

theorem Decl.OfImports.mono {P Q : GenDecl → Prop} {d : Decl} (h : d.OfImports P)
    (weaker : ∀ d, P d → Q d) : d.OfImports Q := by
  cases d with
  | gen d => exact fun imports => weaker d (h imports)
  | func f => trivial

namespace GenDecl

variable {modulePath : Option String} {commented : List (String × String)} {d : GenDecl}

/-- Whether the keyword has its place in the source. -/
def InPlace (d : GenDecl) : Prop := d.kwPos.start < d.kwPos.stop

/-- A declaration of imports as it was read. -/
structure Fresh (commented : List (String × String)) (d : GenDecl) : Prop where
  isImport : ∀ s ∈ d.specs, s.IsImport
  known : (Imports.keys Spec.hasComment d.specs).Subperm commented
  spread : Imports.Spread d.kwPos.start d.specs

/-- A declaration of imports that was gathered, and whether others were merged into it since. -/
structure Ready (modulePath : Option String) (commented : List (String × String)) (grown : Bool)
    (d : GenDecl) : Prop where
  isImport : ∀ s ∈ d.specs, s.IsImport
  known : (Imports.keys Spec.hasComment d.specs).Subperm commented
  homed : d.InPlace → Imports.Homed modulePath d.kwPos.start d.specs
  standardFirst : d.InPlace → grown = false → Imports.StandardFirst modulePath commented d.specs

/-- The imports of a declaration are as they are to be, if its keyword is in place. -/
structure Listed (modulePath : Option String) (commented : List (String × String))
    (d : GenDecl) : Prop where
  isImport : ∀ s ∈ d.specs, s.IsImport
  standardFirst : d.InPlace → Imports.StandardFirst modulePath commented d.specs

theorem Ready.listed (h : d.Ready modulePath commented false) : d.Listed modulePath commented :=
  ⟨h.isImport, fun inPlace => h.standardFirst inPlace rfl⟩

/-- The declaration does not begin before an offset. -/
def Past (k : Nat) (d : GenDecl) : Prop := k ≤ d.kwPos.start ∧ ∀ s ∈ d.specs, k ≤ s.pos

end GenDecl

/-- The imports of `b` stand behind the keyword of `a`. -/
def Decl.Before (a b : Decl) : Prop :=
  a.OfImports fun d => d.InPlace → b.OfImports (GenDecl.Past (d.kwPos.start + 2))

/-- A declaration that comes of `a`, begins no earlier and has no other imports with a comment. -/
inductive Decl.Follows : (a a' : Decl) → Prop where
  | gen {d d' : GenDecl} (kind : d'.kind = d.kind) (kwPos : d'.InPlace → d'.kwPos = d.kwPos)
    (past : d.kind = .imports → ∀ k, d.Past k → d'.Past k)
    (keys : (Imports.keys Spec.hasComment d'.specs).Subperm
      (Imports.keys Spec.hasComment d.specs)) : Follows (.gen d) (.gen d')
  | func (f f' : FuncDecl) : Follows (.func f) (.func f')

theorem Decl.Follows.commentedKeys {a a' : Decl} (h : a.Follows a') :
    a'.commentedKeys.Subperm a.commentedKeys := by
  cases h with
  | func => exact List.nil_subperm
  | @gen d d' kind _ _ keys =>
    unfold Decl.commentedKeys
    dsimp only
    rw [kind]
    split
    · exact keys
    · exact List.nil_subperm

theorem Decl.Before.follows {a a' b b' : Decl} (h : a.Before b) (left : a.Follows a')
    (right : b.Follows b') : a'.Before b' := by
  cases left with
  | func => trivial
  | @gen d d' kind kwPos =>
    intro imports inPlace
    have same := kwPos inPlace
    have inPlace₀ : d.InPlace := by
      rw [GenDecl.InPlace, ← same]
      exact inPlace
    cases right with
    | func => trivial
    | gen kind' _ past =>
      intro imports'
      rw [same]
      have imports₀ := kind'.symm.trans imports'
      exact past imports₀ _ (h (kind.symm.trans imports) inPlace₀ imports₀)

/-! ### Gathering and flattening -/

/-- Flattening drops the parentheses and leaves the keyword in place, or puts it at the spec. -/
theorem GenDecl.flatten_gives {comments : List CommentGroup} {t : LineTable} {d : GenDecl} :
    Gives (d.flatten comments) t fun d' _ => d' = d ∨ ∃ kwPos,
      d' = { d with kwPos, lparen := none, rparen := none } ∧
        (kwPos = d.kwPos ∨ ∃ s ∈ d.specs, kwPos = .point s.pos) := by
  unfold GenDecl.flatten
  split
  · split
    · exact .pure (.inl rfl)
    · rename_i spec _ _ only _
      refine .get_bind ?_
      extract_lets kwLine finish
      have finish_gives : ∀ kwPos : Span, (kwPos = d.kwPos ∨ ∃ s ∈ d.specs, kwPos = .point s.pos) →
          ∀ t, Gives (finish kwPos) t fun d' _ => d' = d ∨ ∃ kwPos,
            d' = { d with kwPos, lparen := none, rparen := none } ∧
              (kwPos = d.kwPos ∨ ∃ s ∈ d.specs, kwPos = .point s.pos) :=
        fun kwPos place t => .get_bind (.bind .any fun _ _ _ => .pure (.inr ⟨kwPos, rfl, place⟩))
      split
      · exact .bind .any fun _ t' _ => finish_gives _ (.inl rfl) t'
      · refine .bind .any fun _ t' _ => finish_gives _ (.inr ⟨spec, ?_, rfl⟩) t'
        rw [only]
        exact List.mem_cons_self
  · exact .pure (.inl rfl)

namespace Tidy

variable {n : Nat} {opts : Options} {comments : List CommentGroup} {t : LineTable}
  {modulePath : Option String} {commented : List (String × String)}

/-- What gathering does to a declaration: it gathers the imports of a group. -/
inductive Gathers (n : Nat) (modulePath : Option String) : Decl → Decl → Prop where
  | same {d : Decl} (short : d.OfImports fun d => d.specs.length ≤ 1) : Gathers n modulePath d d
  | group {d : GenDecl} {specs first rest : List Spec} {t t' : LineTable} (cover : t'.Over n)
    (imports : d.kind = .imports)
    (gathered : Imports.Gathered modulePath d.kwPos.start t t' d.specs specs first rest) :
    Gathers n modulePath (.gen d) (.gen { d with specs })

theorem gatherImports_gives {d : Decl} (h : d.Within n) (cover : t.Over n)
    (imports : d.OfImports fun d => ∀ s ∈ d.specs, s.IsImport) :
    Gives (gatherImports opts d) t fun d' _ => Gathers n opts.modulePath d d' := by
  cases d with
  | func f => exact .pure (.same trivial)
  | gen d =>
    unfold gatherImports
    dsimp only
    split
    · rename_i isGroup
      have isImports : d.kind = .imports := GenDecl.kind_of_isImportGroup isGroup
      have fits : ∀ s ∈ d.specs, s.Fits n True := fun s mem =>
        ⟨Spec.everywhereAll_iff.mp h.specs s mem, fun _ => imports isImports s mem⟩
      refine .bind (Imports.gather_gives h.kwPos fits cover) ?_
      rintro _ t' ⟨cover', specs, first, rest, rfl, gathered⟩
      exact .pure (.group cover' isImports gathered)
    · rename_i noGroup
      refine .pure (.same fun isImports => ?_)
      simp only [GenDecl.isImportGroup, isImports, beq_self_eq_true, Bool.true_and, Bool.or_eq_true,
        decide_eq_true_eq, not_or] at noGroup
      omega

theorem gatherImports_gathers {d : Decl} (h : d.Within n) :
    (gatherImports opts d).Safe n fun d' => d'.Within n ∧
      (d.OfImports (fun d => ∀ s ∈ d.specs, s.IsImport) → Gathers n opts.modulePath d d') :=
  ((gatherImports_safe h).and_gives fun _ cover _ _ run imports =>
    gatherImports_gives h cover imports _ _ run).mono fun _ ⟨⟨within, _⟩, gathers⟩ =>
      ⟨within, gathers⟩

namespace Gathers

variable {d d' : Decl} (h : Gathers n modulePath d d')

include h

theorem ofFresh (fresh : d.OfImports (GenDecl.Fresh commented)) :
    d'.OfImports (GenDecl.Ready modulePath commented false) ∧ d.Follows d' := by
  cases h with
  | same short =>
    cases d with
    | func f => exact ⟨trivial, .func f f⟩
    | gen d =>
      refine ⟨fun imports => ?_, .gen rfl (fun _ => rfl) (fun _ _ => id) (.refl _)⟩
      have fresh := fresh imports
      exact ⟨fresh.isImport, fresh.known, fun _ => .of_behind fresh.spread.behind,
        fun _ _ => .of_length_le_one (short imports)⟩
  | @group d specs first rest _ _ cover imports gathered =>
    have fresh := fresh imports
    refine ⟨fun _ => ⟨?_, ?_, fun _ => ?_, fun _ _ => ?_⟩,
      .gen rfl (fun _ => rfl) ?_ gathered.keys_hasComment⟩
    · exact gathered.forall_mem (fun _ pos isImport => isImport.restamp pos) fresh.isImport
    · exact gathered.keys_hasComment.trans fresh.known
    · exact gathered.homed fresh.isImport cover.ordered fresh.spread
    · exact gathered.standardFirst fresh.isImport fresh.known fun s mem =>
        fresh.spread.behind s (gathered.mem_rest mem)
    · rintro - k ⟨kw, ofSpecs⟩
      refine ⟨kw, fun s mem => ?_⟩
      rcases gathered.pos_mem fresh.isImport s mem with atHome | found
      · exact atHome ▸ kw
      · exact List.forall_mem_map.mpr ofSpecs _ found

theorem ofReady {grown : Bool} (ready : d.OfImports (GenDecl.Ready modulePath commented grown)) :
    d'.OfImports (GenDecl.Listed modulePath commented) := by
  cases h with
  | same short =>
    cases d with
    | func f => trivial
    | gen d =>
      intro imports
      exact ⟨(ready imports).isImport, fun _ => .of_length_le_one (short imports)⟩
  | @group d specs first rest _ _ cover imports gathered =>
    have ready := ready imports
    refine fun _ => ⟨?_, fun inPlace => ?_⟩
    · exact gathered.forall_mem (fun _ pos isImport => isImport.restamp pos) ready.isImport
    · have homed := ready.homed inPlace
      rw [gathered.parts] at homed
      exact gathered.standardFirst ready.isImport ready.known (homed.rest_behind gathered.run)

end Gathers

theorem flatten_gives {d : Decl} :
    Gives (Tidy.flatten comments d) t fun d' _ =>
      d.OfImports (GenDecl.Ready modulePath commented false) →
        d'.OfImports (GenDecl.Ready modulePath commented false) ∧ d.Follows d' := by
  cases d with
  | func f => exact .pure fun _ => ⟨trivial, .func f f⟩
  | gen d =>
    refine .bind GenDecl.flatten_gives ?_
    rintro _ t' (rfl | ⟨kwPos, rfl, place⟩)
    · exact .pure fun ready => ⟨ready, .gen rfl (fun _ => rfl) (fun _ _ => id) (.refl _)⟩
    · refine .pure fun ready => ?_
      have inPlace : kwPos.start < kwPos.stop → kwPos = d.kwPos := by
        rcases place with same | ⟨s, -, rfl⟩
        · exact fun _ => same
        · exact fun wide => absurd wide (Nat.lt_irrefl _)
      refine ⟨fun imports => ?_, .gen rfl inPlace ?_ (.refl _)⟩
      · obtain ⟨isImport, known, homed, standardFirst⟩ := ready imports
        refine ⟨isImport, known, fun wide => ?_, fun wide => ?_⟩
        · obtain rfl := inPlace wide
          exact homed wide
        · obtain rfl := inPlace wide
          exact standardFirst wide
      · rintro - k ⟨kw, ofSpecs⟩
        refine ⟨?_, ofSpecs⟩
        rcases place with rfl | ⟨s, mem, rfl⟩
        · exact kw
        · exact ofSpecs s mem

theorem flatten_ready (modulePath : Option String) (commented : List (String × String)) {d : Decl}
    (h : d.Within n) :
    (Tidy.flatten comments d).Safe n fun d' => d'.Within n ∧
      (d.OfImports (GenDecl.Ready modulePath commented false) →
        d'.OfImports (GenDecl.Ready modulePath commented false) ∧ d.Follows d') :=
  ((flatten_safe h).and_gives fun _ _ => flatten_gives).mono fun _ ⟨⟨within, _⟩, kept⟩ =>
    ⟨within, kept⟩

/-! ### The nodes of a declaration -/

/-- Parentheses may be dropped once more, and a keyword that is in place then was so before. -/
theorem onDecl_inPlace {d : GenDecl} (h : d.Within n) :
    (judgement n).Holds (onDecl comments d) fun leave =>
      ∀ x, (judgement n).Holds (leave x) fun y =>
        y.kind = x.kind ∧ y.specs = x.specs ∧ (y.InPlace → y.kwPos = d.kwPos) := by
  have pos : 0 < n := Nat.zero_lt_of_lt h.kwPos.1
  have safe := (GenDecl.flatten_safe comments d pos h.kwPos h.specs).and_gives fun t _ =>
    GenDecl.flatten_gives
  refine (judgement n).bind (holds_lift safe) fun flat ⟨_, place⟩ => ?_
  refine (judgement n).pure fun _ => (judgement n).pure ⟨rfl, rfl, ?_⟩
  rcases place with rfl | ⟨kwPos, rfl, rfl | ⟨s, -, rfl⟩⟩
  · exact fun _ => rfl
  · exact fun _ => rfl
  · exact fun wide => absurd wide (Nat.lt_irrefl _)

theorem visitAll_imports {ss : List Spec} (imports : ∀ s ∈ ss, s.IsImport) :
    (judgement n).Holds (Spec.visitAll (visitor opts comments) ss) fun ss' => ss' = ss := by
  induction ss with
  | nil => exact (judgement n).pure rfl
  | cons s ss ih =>
    obtain ⟨⟨i, rfl⟩, behind⟩ := List.forall_mem_cons.mp imports
    have here : (judgement n).Holds (Spec.visit (visitor opts comments) (.importSpec i))
        fun s' => s' = .importSpec i := (judgement n).pure rfl
    refine (judgement n).bind here fun s' same => (judgement n).bind (ih behind) fun ss' rest => ?_
    exact (judgement n).pure (by rw [same, rest])

/-- A declaration stays of its kind, and imports stay as they are. -/
theorem visit_imports {d : GenDecl} (h : d.Within n) :
    (judgement n).Holds (d.visit (visitor opts comments)) fun d' =>
      d'.kind = d.kind ∧ (d'.InPlace → d'.kwPos = d.kwPos) ∧
        ((∀ s ∈ d.specs, s.IsImport) → d'.specs = d.specs) := by
  have pos : 0 < n := Nat.zero_lt_of_lt h.kwPos.1
  obtain ⟨doc, kwPos, kind, lparen, specs, rparen⟩ := d
  refine (judgement n).bind (onDecl_inPlace h) fun leave done => ?_
  by_cases imports : ∀ s ∈ specs, s.IsImport
  · refine (judgement n).bind (visitAll_imports imports) ?_
    rintro _ rfl depth
    exact (done _ depth).mono fun r ⟨sameKind, sameSpecs, inPlace⟩ =>
      ⟨sameKind, inPlace, fun _ => sameSpecs⟩
  · refine (judgement n).bind (Spec.visitAll_kept (visitor_sound pos) specs h.specs) ?_
    intro specs' _ depth
    exact (done _ depth).mono fun r ⟨sameKind, _, inPlace⟩ =>
      ⟨sameKind, inPlace, fun all => absurd all imports⟩

theorem visit_standardFirst {d : Decl} (h : d.Within n) :
    (judgement n).Holds (d.visit (visitor opts comments)) fun d' =>
      d.OfImports (GenDecl.Listed modulePath commented) →
        d'.OfImports (GenDecl.Listed modulePath commented) := by
  cases d with
  | func f =>
    have pos : 0 < n := Nat.zero_lt_of_lt h.1.1
    refine (judgement n).bind (f.visit_kept (visitor_sound pos) h) fun _ _ => ?_
    exact (judgement n).pure fun _ => trivial
  | gen d =>
    refine (judgement n).bind (visit_imports h) fun d' ⟨sameKind, inPlace, sameSpecs⟩ => ?_
    refine (judgement n).pure fun listed imports => ?_
    obtain ⟨isImport, standardFirst⟩ := listed (sameKind.symm.trans imports)
    have same := sameSpecs isImport
    refine ⟨same ▸ isImport, fun wide => ?_⟩
    rw [same]
    refine standardFirst ?_
    change d.kwPos.start < d.kwPos.stop
    rw [← inPlace wide]
    exact wide

theorem finish_standardFirst (commented : List (String × String)) {m : Merged}
    (h : m.decl.Within n) :
    (finish opts comments m).Safe n fun d' =>
      m.decl.OfImports (GenDecl.Ready opts.modulePath commented m.grown) →
        d'.OfImports (GenDecl.Listed opts.modulePath commented) := by
  have nodes_safe : ∀ d : Decl, d.Within n ∧
      (m.decl.OfImports (GenDecl.Ready opts.modulePath commented m.grown) →
        d.OfImports (GenDecl.Listed opts.modulePath commented)) →
      (nodes opts comments d).Safe n fun d' =>
        m.decl.OfImports (GenDecl.Ready opts.modulePath commented m.grown) →
          d'.OfImports (GenDecl.Listed opts.modulePath commented) :=
    fun d ⟨within, listed⟩ => .map ((visit_standardFirst within 0).mono fun r visited ready =>
      visited (listed ready))
  unfold finish
  split
  · refine .bind (gatherImports_gathers h) fun d ⟨within, gathers⟩ => nodes_safe d ⟨within, ?_⟩
    exact fun ready => (gathers (ready.mono fun _ => (·.isImport))).ofReady ready
  · rename_i notGrown
    refine .bind (.pure ⟨h, fun ready => ready.mono fun d ready => ?_⟩) nodes_safe
    rw [Bool.not_eq_true _ |>.mp notGrown] at ready
    exact ready.listed

end Tidy

/-! ### Merging -/

namespace Groups

variable {modulePath : Option String} {commented : List (String × String)}
  {comments : List CommentGroup} {lines : LineTable}

/-- A declaration that takes in one behind it. -/
theorem Unclosed.absorb_ready {u : Unclosed} {d : GenDecl} {grown grown' : Bool}
    (admitted : u.admits lines d)
    (ofHead : (Decl.gen u.head).OfImports (GenDecl.Ready modulePath commented grown))
    (ready : (Decl.gen d).OfImports (GenDecl.Ready modulePath commented grown'))
    (before : (Decl.gen u.head).Before (.gen d))
    (known : ((Decl.gen u.head).commentedKeys ++ (Decl.gen d).commentedKeys).Subperm commented) :
    (Decl.gen (u.absorb comments lines d).head).OfImports
      (GenDecl.Ready modulePath commented true) := by
  intro (imports : u.head.kind = .imports)
  obtain ⟨-, same, -⟩ := admits_iff.mp admitted
  have imports' : d.kind = .imports := same.trans imports
  have ofHead := ofHead imports
  have ready := ready imports'
  refine ⟨?_, ?_, fun inPlace => ?_, nofun⟩
  · exact List.forall_mem_append.mpr ⟨ofHead.isImport, ready.isImport⟩
  · rw [Decl.commentedKeys_of_imports imports, Decl.commentedKeys_of_imports imports',
      ← Imports.keys_append] at known
    exact known
  · exact (ofHead.homed inPlace).append (before imports inPlace imports').2

theorem Unclosed.absorb_commentedKeys {u : Unclosed} {d : GenDecl} (admitted : u.admits lines d) :
    (Decl.gen (u.absorb comments lines d).head).commentedKeys =
      (Decl.gen u.head).commentedKeys ++ (Decl.gen d).commentedKeys := by
  obtain ⟨-, same, -⟩ := admits_iff.mp admitted
  unfold Decl.commentedKeys
  dsimp only [Unclosed.absorb]
  rw [same]
  split
  · exact Imports.keys_append
  · rfl

/-- Groups are ready to be gathered anew, and those that have not grown need not be. All of them
together have no more imports with a comment than the source. -/
theorem mergeFrom_ready {u : Option Unclosed} {ds : List Decl}
    (ready : ∀ d ∈ ds, d.OfImports (GenDecl.Ready modulePath commented false))
    (ordered : ds.Pairwise Decl.Before)
    (ofOpen : ∀ x ∈ u, (Decl.gen x.head).OfImports (GenDecl.Ready modulePath commented x.grown) ∧
      ∀ d ∈ ds, (Decl.gen x.head).Before d)
    (known : (u.toList.flatMap (fun x => (Decl.gen x.head).commentedKeys) ++
      ds.flatMap Decl.commentedKeys).Subperm commented) :
    ∀ m ∈ mergeFrom comments lines u ds,
      m.decl.OfImports (GenDecl.Ready modulePath commented m.grown) := by
  have closed : ∀ u : Option Unclosed,
      (∀ x ∈ u, (Decl.gen x.head).OfImports (GenDecl.Ready modulePath commented x.grown)) →
      ∀ m ∈ (u.map Unclosed.close).toList,
        m.decl.OfImports (GenDecl.Ready modulePath commented m.grown) := by
    intro u ofOpen m mem
    cases u with
    | none => simp at mem
    | some x =>
      obtain rfl : m = x.close := by simpa using mem
      exact ofOpen x rfl
  fun_induction mergeFrom comments lines u ds with
  | case1 u => exact closed u fun x mem => (ofOpen x mem).1
  | case2 u f rest ih =>
    have rest_ready := ih (List.forall_mem_cons.mp ready).2 ordered.tail (by simp)
      ((List.sublist_append_right _ _).subperm.trans known)
    exact List.forall_mem_append.mpr ⟨closed u fun x mem => (ofOpen x mem).1,
      List.forall_mem_cons.mpr ⟨trivial, rest_ready⟩⟩
  | case3 d rest ih =>
    obtain ⟨here, behind⟩ := List.forall_mem_cons.mp ready
    obtain ⟨first, ordered⟩ := List.pairwise_cons.mp ordered
    refine ih behind ordered ?_ (by simpa [Unclosed.ofDecl] using known)
    rintro _ ⟨⟩
    exact ⟨here, first⟩
  | case4 u d rest admitted ih =>
    obtain ⟨here, behind⟩ := List.forall_mem_cons.mp ready
    obtain ⟨ofHead, before⟩ := ofOpen u rfl
    obtain ⟨beforeHere, beforeRest⟩ := List.forall_mem_cons.mp before
    have known : ((Decl.gen u.head).commentedKeys ++ ((Decl.gen d).commentedKeys ++
        rest.flatMap Decl.commentedKeys)).Subperm commented := by
      simpa using known
    rw [← List.append_assoc] at known
    refine ih behind ordered.tail ?_ ?_
    · rintro _ ⟨⟩
      refine ⟨Unclosed.absorb_ready admitted ofHead here beforeHere ?_, beforeRest⟩
      exact (List.sublist_append_left _ _).subperm.trans known
    · have joined := @Unclosed.absorb_commentedKeys comments _ _ _ admitted
      rw [← joined] at known
      simpa using known
  | case5 u d rest refused ih =>
    obtain ⟨here, behind⟩ := List.forall_mem_cons.mp ready
    obtain ⟨first, ordered⟩ := List.pairwise_cons.mp ordered
    refine List.forall_mem_cons.mpr ⟨(ofOpen u rfl).1, ih behind ordered ?_ ?_⟩
    · rintro _ ⟨⟩
      exact ⟨here, first⟩
    · refine List.Subperm.trans (List.Sublist.subperm ?_) known
      simp [Unclosed.ofDecl]

end Groups

/-! ### Whole files -/

theorem Imports.Spread.of_row {kw : Span} {specs : List Spec}
    (row : Span.Row (kw :: specs.map Spec.extent)) : Imports.Spread kw.start specs := by
  obtain ⟨wideKw, wide⟩ := List.forall_mem_cons.mp row.wide
  obtain ⟨first, apart⟩ := List.pairwise_cons.mp row.apart
  have wide : ∀ s ∈ specs, s.pos + 2 ≤ s.stop := List.forall_mem_map.mp wide
  refine ⟨fun s mem => ?_, ?_, fun s mem => ?_⟩
  · exact Nat.le_trans wideKw (first _ (List.mem_map_of_mem mem))
  · exact (List.pairwise_map.mp apart).imp_of_mem fun memA _ le => Nat.le_trans (wide _ memA) le
  · have := wide s mem
    omega

theorem pairwise_of_forall₂ {α β : Type} {R : α → α → Prop} {R' : β → β → Prop}
    {S : α → β → Prop} {as : List α} {bs : List β} (h : List.Forall₂ S as bs)
    (ordered : as.Pairwise R) (step : ∀ {a a' b b'}, R a b → S a a' → S b b' → R' a' b') :
    bs.Pairwise R' := by
  induction h with
  | nil => exact .nil
  | cons here rest ih =>
    obtain ⟨first, ordered⟩ := List.pairwise_cons.mp ordered
    refine .cons (forall_mem_of_forall₂ (rest.imp fun b b' there related => ?_) first) (ih ordered)
    exact step related here there

theorem forall₂_of_forall {α β : Type} {p : α → Prop} {R : α → β → Prop} {as : List α}
    {bs : List β} (h : List.Forall₂ (fun a b => p a → R a b) as bs) (all : ∀ a ∈ as, p a) :
    List.Forall₂ R as bs :=
  ((List.forall₂_and_left _ _).mpr ⟨all, h⟩).imp fun _ _ ⟨holds, related⟩ => related holds

theorem subperm_flatMap_of_forall₂ {α β γ : Type} {f : α → List γ} {g : β → List γ} {as : List α}
    {bs : List β} (h : List.Forall₂ (fun a b => (g b).Subperm (f a)) as bs) :
    (bs.flatMap g).Subperm (as.flatMap f) := by
  induction h with
  | nil => exact .refl _
  | @cons a b as bs here _ ih =>
    rw [List.flatMap_cons, List.flatMap_cons]
    exact ((List.subperm_append_right _).mpr here).trans ((List.subperm_append_left _).mpr ih)

namespace SourceFile

/-- The paths and names of the imports that have a comment behind them. -/
def commentedKeys (f : SourceFile) : List (String × String) :=
  f.decls.flatMap Decl.commentedKeys

variable {src : String} {f : SourceFile}

theorem fresh_of_parse (read : SourceFile.parse src = .ok f) :
    ∀ d ∈ f.decls, d.OfImports (GenDecl.Fresh f.commentedKeys) := by
  intro d mem
  cases d with
  | func g => trivial
  | gen d =>
    intro imports
    have row := row_of_parse read
    have own : Span.Row d.importSpans :=
      ⟨fun s found => row.wide s (List.mem_flatMap.mpr ⟨_, mem, found⟩),
        (List.pairwise_flatMap.mp row.apart).1 _ mem⟩
    refine ⟨?_, ?_, ?_⟩
    · exact (over_of_parse read).2 d mem imports
    · rw [← Decl.commentedKeys_of_imports imports]
      obtain ⟨front, back, parts⟩ := List.append_of_mem mem
      rw [commentedKeys, parts, List.flatMap_append, List.flatMap_cons]
      exact ((List.sublist_append_left _ _).trans (List.sublist_append_right _ _)).subperm
    · rw [GenDecl.importSpans, if_pos imports] at own
      exact .of_row own

theorem before_of_parse (read : SourceFile.parse src = .ok f) : f.decls.Pairwise Decl.Before := by
  have row := row_of_parse read
  refine (List.pairwise_flatMap.mp row.apart).2.imp_of_mem fun {a b} mem _ apart => ?_
  cases a with
  | func g => trivial
  | gen d =>
    intro imports _
    have kw : d.kwPos ∈ (Decl.gen d).importSpans := by
      rw [Decl.importSpans, GenDecl.importSpans, if_pos imports]
      exact List.mem_cons_self
    have wide := row.wide _ (List.mem_flatMap.mpr ⟨_, mem, kw⟩)
    cases b with
    | func g => trivial
    | gen e =>
      intro imports'
      have behind := apart _ kw
      rw [Decl.importSpans, GenDecl.importSpans, if_pos imports'] at behind
      obtain ⟨ofKw, ofSpecs⟩ := List.forall_mem_cons.mp behind
      refine ⟨Nat.le_trans wide ofKw, fun s inSpecs => ?_⟩
      exact Nat.le_trans wide (ofSpecs _ (List.mem_map_of_mem inSpecs))

theorem tidy_lists {opts : Options} (read : SourceFile.parse src = .ok f) :
    Yields (SourceFile.tidy opts) f fun _ f' =>
      ∀ d ∈ f'.decls, d.OfImports (GenDecl.Listed opts.modulePath f.commentedKeys) := by
  refine (tidy_stages opts (over_of_parse read).1 (fun _ => Tidy.gatherImports_gathers)
    (fun _ => Tidy.flatten_ready opts.modulePath f.commentedKeys)
    fun _ => Tidy.finish_standardFirst f.commentedKeys).mono ?_
  rintro - f' ⟨lines, gathered, flat, first, second, last⟩
  have first := forall₂_of_forall (first.imp fun d d' gathers fresh =>
    (gathers (fresh.mono fun _ => (·.isImport))).ofFresh fresh) (fresh_of_parse read)
  have ready₁ := forall_mem_of_forall₂ (first.imp fun _ _ h _ => h.1) (fun _ _ => trivial)
  have second := forall₂_of_forall second ready₁
  have ready₂ := forall_mem_of_forall₂ (second.imp fun _ _ h _ => h.1) (fun _ _ => trivial)
  have before₁ := pairwise_of_forall₂ first (before_of_parse read) fun h left right =>
    h.follows left.2 right.2
  have before₂ := pairwise_of_forall₂ second before₁ fun h left right => h.follows left.2 right.2
  have known := (subperm_flatMap_of_forall₂ (second.imp fun _ _ h => h.2.commentedKeys)).trans
    (subperm_flatMap_of_forall₂ (first.imp fun _ _ h => h.2.commentedKeys))
  refine forall_mem_of_forall₂ last fun m mem => ?_
  exact Groups.mergeFrom_ready (u := none) ready₂ before₂ nofun known m (List.mem_of_mem_filter mem)

/-- The standard library comes first in a tidied file. Where the keyword of a declaration of
imports has its place in the source, an import of the standard library that stands behind one of
another module has a name, or it is one of those that were read with a comment: there are no more of
a path. -/
theorem tidy_lists_standard_first {opts : Options} (read : SourceFile.parse src = .ok f) :
    ∃ f', (SourceFile.tidy opts).run f = .ok () f' ∧
      ∀ d, .gen d ∈ f'.decls → d.kind = .imports → d.kwPos.start < d.kwPos.stop →
        Imports.StandardFirst opts.modulePath f.commentedKeys d.specs := by
  obtain ⟨_, f', run, listed⟩ := tidy_lists read
  exact ⟨f', run, fun d mem imports inPlace => (listed _ mem imports).standardFirst inPlace⟩

/-- A group in which one import of the standard library is moved, and one with a name is not. -/
theorem tidy_lists_standard_first_of_group :
    ∃ f f' d, SourceFile.parse "package p\nimport (\n\"b.c\"\nx \"y\"\n\"z\"\n)\n" = .ok f ∧
      (SourceFile.tidy ⟨none, false, none, false, none⟩).run f = .ok () f' ∧
      .gen d ∈ f'.decls ∧ d.kind = .imports ∧ d.kwPos = ⟨10, 16⟩ ∧
      d.specs.map Imports.sortKey = [("z", ""), ("b.c", ""), ("y", "x")] ∧
      Imports.StandardFirst none f.commentedKeys d.specs := by
  generalize source : SourceFile.parse _ = parsed
  have listed : parsed.toOption.bind (EStateM.run' do
      SourceFile.tidy ⟨none, false, none, false, none⟩
      return decide (∀ d ∈ (← get).decls, d.OfImports fun d => ¬(d.kwPos = ⟨10, 16⟩ ∧
        d.specs.map Imports.sortKey = [("z", ""), ("b.c", ""), ("y", "x")]))) = some false := by
    rw [← source]
    decide +kernel
  cases parsed with
  | error e => nomatch listed
  | ok f =>
    obtain ⟨f', run, first⟩ :=
      @tidy_lists_standard_first _ f ⟨none, false, none, false, none⟩ source
    change EStateM.run' _ f = _ at listed
    delta EStateM.run' at listed
    rw [EStateM.run_bind, run] at listed
    by_contra none
    refine of_decide_eq_false (Option.some.inj listed) fun d mem => ?_
    cases d with
    | func g => trivial
    | gen d =>
      rintro imports ⟨kwPos, keys⟩
      have inPlace : d.kwPos.start < d.kwPos.stop := by
        rw [kwPos]
        decide
      exact none ⟨f, f', d, rfl, run, mem, imports, kwPos, keys, first d mem imports inPlace⟩

/-- A group of one import below a comment is flattened, and a lone import is merged into it. The
keyword is at the import by then, so that the standard library is not put before it. -/
theorem tidy_mixes_imports :
    ¬ ∀ src f f' opts, opts.rule = none → SourceFile.parse src = .ok f →
      (SourceFile.tidy opts).run f = .ok () f' →
      ∀ d, .gen d ∈ f'.decls → d.kind = .imports →
        Imports.StandardFirst opts.modulePath f.commentedKeys d.specs := by
  intro first
  generalize source : SourceFile.parse
    "package p\n\nimport (\n\t// o\n\t\"b.c/d\"\n)\nimport \"z\"\n" = parsed
  have mixed : (parsed.toOption.bind fun f => EStateM.run' (do
      SourceFile.tidy ⟨none, false, none, false, none⟩
      return decide (∀ d ∈ (← get).decls, d.OfImports fun d =>
        Imports.StandardFirst none f.commentedKeys d.specs)) f) = some false := by
    rw [← source]
    decide +kernel
  cases parsed with
  | error e => nomatch mixed
  | ok f =>
    obtain ⟨_, f', run, -⟩ := @tidy_lists _ f ⟨none, false, none, false, none⟩ source
    change EStateM.run (SourceFile.tidy _) f = _ at run
    change EStateM.run' _ f = _ at mixed
    delta EStateM.run' at mixed
    rw [EStateM.run_bind, run] at mixed
    refine of_decide_eq_false (Option.some.inj mixed) fun d mem => ?_
    cases d with
    | func g => trivial
    | gen d => exact first _ f f' _ rfl source run d mem

end SourceFile

end GoLayout
