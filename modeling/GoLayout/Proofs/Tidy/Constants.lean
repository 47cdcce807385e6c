import GoLayout.Proofs.Tidy.File

/-!
Constants and their places. The place of a spec among those of its declaration is the value of
`iota` in it. Tidying leaves the specs of a group in their places; a constant that stands alone is
put behind the constants of the declaration before it where the two are merged, and its place is
another one then.
-/

namespace GoLayout

variable {n : Nat}

/-- The names that a spec declares. -/
def Spec.names : Spec → List Ident
  | .importSpec _ => []
  | .valueSpec _ names _ _ _ _ => names
  | .typeSpec _ name _ _ _ _ => [name]

/-- Whether what a spec declares hangs on its place: its values name `iota`, or it has none and
repeats those of the spec before. -/
def Spec.usesPlace : Spec → Bool
  | .valueSpec _ _ _ _ values _ =>
    values.isEmpty || (Expr.wordsAll values).any (·.text == "iota")
  | _ => false

/-- The constants of a declaration, by the names of each spec. -/
def Decl.constants? : Decl → Option (List (List Ident))
  | .gen d => if d.kind = .consts then some (d.specs.map Spec.names) else none
  | .func _ => none

/-- The constants of a declaration that hang on their places, with these. -/
def Decl.placed : Decl → List (List Ident × Nat)
  | .gen d =>
    if d.kind = .consts then
      (d.specs.zipIdx.filter (·.1.usesPlace)).map fun (s, place) => (s.names, place)
    else []
  | .func _ => []

namespace SourceFile

/-- The groups of constants of a file. -/
def constants (f : SourceFile) : List (List (List Ident)) := f.decls.filterMap Decl.constants?

/-- The constants of a file that hang on their places, with these. -/
def placed (f : SourceFile) : List (List Ident × Nat) := f.decls.flatMap Decl.placed

end SourceFile

theorem Decl.constants?_eq {d : GenDecl} (h : d.kind = .consts) :
    (Decl.gen d).constants? = some (d.specs.map Spec.names) := if_pos h

theorem Decl.constants?_eq_none {d : GenDecl} (h : d.kind ≠ .consts) :
    (Decl.gen d).constants? = none := if_neg h

theorem Decl.exists_of_constants? {d : Decl} {group : List (List Ident)}
    (h : d.constants? = some group) :
    ∃ d', d = .gen d' ∧ d'.kind = .consts ∧ d'.specs.map Spec.names = group := by
  cases d with
  | func f => nomatch h
  | gen d =>
    by_cases consts : d.kind = .consts
    · rw [Decl.constants?_eq consts] at h
      exact ⟨d, rfl, consts, Option.some.inj h⟩
    · rw [Decl.constants?_eq_none consts] at h
      nomatch h

/-! ### Groups that lone elements join -/

section Joined

variable {α : Type}

/-- What becomes of a list of groups when some elements that stand alone join the group before
them. -/
inductive Joined : (before after : List (List α)) → Prop where
  | nil : Joined [] []
  | keep {before after : List (List α)} (group : List α) (rest : Joined before after) :
    Joined (group :: before) (group :: after)
  | join {before after : List (List α)} (group : List α) (a : α)
      (rest : Joined ((group ++ [a]) :: before) after) : Joined (group :: [a] :: before) after

/-- Every group is found again, from its own first place on unless it is a single element. -/
theorem Joined.exists_drop {before after : List (List α)} (h : Joined before after) :
    ∀ group ∈ before, group ≠ [] →
      ∃ group' ∈ after, ∃ k, group <+: group'.drop k ∧ (k ≠ 0 → group.length = 1) := by
  induction h with
  | nil => simp
  | keep group rest ih =>
    intro g mem nonempty
    rcases List.mem_cons.mp mem with rfl | behind
    · exact ⟨g, List.mem_cons_self, 0, List.prefix_refl g, fun h => absurd rfl h⟩
    · obtain ⟨g', mem', found⟩ := ih g behind nonempty
      exact ⟨g', List.mem_cons_of_mem _ mem', found⟩
  | join group a rest ih =>
    intro g mem nonempty
    obtain ⟨g', mem', k, ⟨more, parts⟩, lone⟩ := ih (group ++ [a]) List.mem_cons_self (by simp)
    rcases List.mem_cons.mp mem with rfl | mem
    · -- The group is longer now, so it has its own first place.
      have first : k = 0 := by
        by_contra moved
        have length := lone moved
        have pos : 0 < g.length := List.length_pos_of_ne_nil nonempty
        rw [List.length_append] at length
        simp only [List.length_singleton] at length
        omega
      subst first
      refine ⟨g', mem', 0, ⟨[a] ++ more, ?_⟩, fun h => absurd rfl h⟩
      rw [← List.append_assoc, parts]
    rcases List.mem_cons.mp mem with rfl | behind
    · -- The element stands behind all of the group it has joined.
      refine ⟨g', mem', k + group.length, ⟨more, ?_⟩, fun _ => rfl⟩
      rw [← List.drop_drop, ← parts]
      simp
    · exact ih g (List.mem_cons_of_mem _ behind) nonempty

theorem Joined.flatten_eq {before after : List (List α)} (h : Joined before after) :
    after.flatten = before.flatten := by
  induction h with
  | nil => rfl
  | keep group rest ih => rw [List.flatten_cons, List.flatten_cons, ih]
  | join group a rest ih =>
    rw [ih]
    simp

end Joined

/-! ### Merging -/

namespace Groups

variable {comments : List CommentGroup} {lines : LineTable}

/-- A declaration of constants that others may be merged with: one spec stands without
parentheses. -/
def Single : Decl → Prop
  | .gen d => d.kind = .consts → d.Bracketed
  | .func _ => True

theorem joined_cons {m : Merged} {ds : List Decl} {ms : List Merged}
    (rest : Joined (ds.filterMap Decl.constants?) (ms.filterMap (·.decl.constants?))) :
    Joined ((m.decl :: ds).filterMap Decl.constants?)
      ((m :: ms).filterMap (·.decl.constants?)) := by
  rw [List.filterMap_cons, List.filterMap_cons]
  cases m.decl.constants? with
  | none => exact rest
  | some group => exact .keep group rest

/-- A lone constant joins the group that takes it in. -/
theorem joined_absorb {u : Unclosed} {d : GenDecl} {ds : List Decl}
    {after : List (List (List Ident))} (admitted : u.admits lines d) (single : Single (.gen d))
    (rest : Joined ((.gen (u.absorb comments lines d).head :: ds).filterMap Decl.constants?)
      after) :
    Joined ((.gen u.head :: .gen d :: ds).filterMap Decl.constants?) after := by
  obtain ⟨-, same, lone, -, -⟩ := Unclosed.admits_iff.mp admitted
  rw [List.filterMap_cons] at rest
  rw [List.filterMap_cons, List.filterMap_cons]
  by_cases consts : u.head.kind = .consts
  · have consts' : d.kind = .consts := same.trans consts
    obtain ⟨s, only⟩ := List.length_eq_one_iff.mp (single consts' lone)
    have absorbed : (Decl.gen (u.absorb comments lines d).head).constants? =
        some (u.head.specs.map Spec.names ++ [s.names]) := by
      rw [Decl.constants?_eq (by exact consts), Unclosed.absorb, only, List.map_append]
      rfl
    rw [absorbed] at rest
    rw [Decl.constants?_eq consts, Decl.constants?_eq consts', only]
    exact .join _ _ rest
  · have absorbed : (Decl.gen (u.absorb comments lines d).head).constants? = none :=
      Decl.constants?_eq_none consts
    rw [absorbed] at rest
    rw [Decl.constants?_eq_none consts, Decl.constants?_eq_none (same ▸ consts)]
    exact rest

/-- Merging lets lone constants join the group before them. -/
theorem joined_mergeFrom {u : Option Unclosed} {ds : List Decl} (single : ∀ d ∈ ds, Single d) :
    Joined ((u.toList.map (fun x => Decl.gen x.head) ++ ds).filterMap Decl.constants?)
      ((mergeFrom comments lines u ds).filterMap (·.decl.constants?)) := by
  fun_induction mergeFrom comments lines u ds with
  | case1 u =>
    cases u with
    | none => exact .nil
    | some x => exact @joined_cons x.close [] [] .nil
  | case2 u f rest ih =>
    have behind := @joined_cons ⟨.func f, false⟩ _ _ (ih (List.forall_mem_cons.mp single).2)
    cases u with
    | none => exact behind
    | some x => exact @joined_cons x.close _ _ behind
  | case3 d rest ih => exact ih (List.forall_mem_cons.mp single).2
  | case4 u d rest admitted ih =>
    obtain ⟨here, others⟩ := List.forall_mem_cons.mp single
    exact joined_absorb admitted here (ih others)
  | case5 u d rest refused ih =>
    exact @joined_cons u.close _ _ (ih (List.forall_mem_cons.mp single).2)

end Groups

/-! ### Single declarations -/

section Visit

variable {m : Type → Type} [Monad m] {J : Judgement m} {P : Span → Prop} {faithful : Prop}
  {v : Visitor m} (sound : v.Sound J P faithful)

include sound

theorem Spec.visit_names (s : Spec) (h : s.Everywhere P) :
    J.Holds (s.visit v) fun s' => s'.names = s.names := by
  cases s with
  | importSpec i => exact J.pure rfl
  | valueSpec doc names type assign values comment =>
    refine J.bind (TypeExpr.visitOpt_kept sound type h.2.1) fun _ _ => ?_
    exact J.bind (Expr.visitAll_kept sound values h.2.2.2) fun _ _ => J.pure rfl
  | typeSpec doc name typeParams assign type comment =>
    refine J.bind (FieldList.visitOpt_kept sound typeParams h.2.1) fun _ _ => ?_
    exact J.bind (type.visit_kept sound h.2.2.2) fun _ _ => J.pure rfl

theorem Spec.visitAll_names (ss : List Spec) (h : Spec.EverywhereAll P ss) :
    J.Holds (Spec.visitAll v ss) fun ss' => ss'.map Spec.names = ss.map Spec.names := by
  induction ss with
  | nil => exact J.pure rfl
  | cons s ss ih =>
    refine J.bind (s.visit_names sound h.1) fun s' same => ?_
    refine J.bind (ih h.2) fun ss' sameAll => J.pure ?_
    rw [List.map_cons, List.map_cons, same, sameAll]

end Visit

namespace Tidy

variable {opts : Options} {comments : List CommentGroup} {d : Decl}

theorem gatherImports_constants (h : d.Within n) :
    (gatherImports opts d).Safe n fun d' => d'.Within n ∧
      d'.constants? = d.constants? ∧ (Groups.Single d → Groups.Single d') := by
  cases d with
  | func f => exact .pure ⟨h, rfl, id⟩
  | gen d =>
    unfold gatherImports
    dsimp only
    split
    · rename_i isGroup
      have imports : d.kind = .imports := GenDecl.kind_of_isImportGroup isGroup
      have noConsts : d.kind ≠ .consts := by
        rw [imports]
        decide
      have fits : ∀ s ∈ d.specs, s.Fits n False := fun s mem =>
        ⟨Spec.everywhereAll_iff.mp h.specs s mem, False.elim⟩
      refine .bind (Imports.gather_safe h.kwPos fits) ?_
      rintro _ ⟨specs, rfl, fits', -⟩
      refine .pure ⟨⟨h.kwPos, ?_, h.rparen⟩, ?_, fun _ consts => absurd consts noConsts⟩
      · exact Spec.everywhereAll_iff.mpr fun s mem => (fits' s mem).everywhere
      · rw [Decl.constants?_eq_none (by exact noConsts), Decl.constants?_eq_none noConsts]
    · exact .pure ⟨h, rfl, id⟩

theorem flatten_constants (h : d.Within n) :
    (Tidy.flatten comments d).Safe n fun d' => d'.Within n ∧
      d'.constants? = d.constants? ∧ (Groups.Single d → Groups.Single d') := by
  cases d with
  | func f => exact .pure ⟨h, rfl, id⟩
  | gen d =>
    have pos : 0 < n := Nat.zero_lt_of_lt h.kwPos.1
    refine .bind (GenDecl.flatten_safe comments d pos h.kwPos h.specs) ?_
    rintro _ (rfl | ⟨one, kwPos, within, rfl⟩)
    · exact .pure ⟨h, rfl, id⟩
    · exact .pure ⟨⟨within, h.specs, nofun⟩, rfl, fun _ _ _ => one⟩

theorem visit_constants (h : d.Within n) :
    (judgement n).Holds (d.visit (visitor opts comments)) fun d' =>
      d'.constants? = d.constants? := by
  cases d with
  | func f =>
    have pos : 0 < n := Nat.zero_lt_of_lt h.1.1
    exact (judgement n).bind (f.visit_kept (visitor_sound pos) h) fun _ _ => (judgement n).pure rfl
  | gen d =>
    have pos : 0 < n := Nat.zero_lt_of_lt h.kwPos.1
    obtain ⟨doc, kwPos, kind, lparen, specs, rparen⟩ := d
    have visited : (judgement n).Holds
        (GenDecl.visit (visitor opts comments) ⟨doc, kwPos, kind, lparen, specs, rparen⟩) fun d' =>
          d'.kind = kind ∧ d'.specs.map Spec.names = specs.map Spec.names := by
      refine (judgement n).bind (onDecl_holds h) fun leave done => ?_
      refine (judgement n).bind (Spec.visitAll_names (visitor_sound pos) specs h.specs) ?_
      intro specs' same depth
      refine (done _ depth).mono fun r ⟨sameKind, sameSpecs⟩ => ⟨sameKind, ?_⟩
      rw [sameSpecs]
      exact same
    refine (judgement n).bind visited fun d' ⟨sameKind, same⟩ => (judgement n).pure ?_
    simp only [Decl.constants?, sameKind, same]

theorem finish_constants {m : Merged} (h : m.decl.Within n) :
    (finish opts comments m).Safe n fun d' => d'.constants? = m.decl.constants? := by
  have nodes_safe : ∀ d : Decl, d.Within n ∧ d.constants? = m.decl.constants? →
      (nodes opts comments d).Safe n fun d' => d'.constants? = m.decl.constants? :=
    fun d ⟨within, same⟩ => .map ((visit_constants within 0).mono fun r again => again.trans same)
  unfold finish
  split
  · refine .bind (gatherImports_constants h) fun d ⟨within, same, _⟩ => ?_
    exact nodes_safe d ⟨within, same⟩
  · exact .bind (.pure ⟨h, rfl⟩) nodes_safe

end Tidy

/-! ### Whole files -/

theorem filterMap_of_forall₂ {α β γ : Type} {f : α → Option γ} {g : β → Option γ} {as : List α}
    {bs : List β} (h : List.Forall₂ (fun a b => g b = f a) as bs) :
    bs.filterMap g = as.filterMap f := by
  induction h with
  | nil => rfl
  | cons same _ ih => rw [List.filterMap_cons, List.filterMap_cons, same, ih]

theorem forall_mem_of_forall₂ {α β : Type} {p : α → Prop} {q : β → Prop} {as : List α}
    {bs : List β} (h : List.Forall₂ (fun a b => p a → q b) as bs) (all : ∀ a ∈ as, p a) :
    ∀ b ∈ bs, q b := by
  induction h with
  | nil => simp
  | cons here _ ih =>
    obtain ⟨first, rest⟩ := List.forall_mem_cons.mp all
    exact List.forall_mem_cons.mpr ⟨here first, ih rest⟩

theorem Decl.isEmpty_of_constants? {d : Decl} {group : List (List Ident)}
    (h : d.constants? = some group) : d.isEmpty = group.isEmpty := by
  obtain ⟨d', rfl, -, rfl⟩ := Decl.exists_of_constants? h
  simp [Decl.isEmpty]

/-- Of the groups of constants, those without any are dropped. -/
theorem filterMap_filter_isEmpty (ms : List Merged) :
    (ms.filter (!·.decl.isEmpty)).filterMap (·.decl.constants?) =
      (ms.filterMap (·.decl.constants?)).filter (· ≠ []) := by
  induction ms with
  | nil => rfl
  | cons m ms ih =>
    cases consts : m.decl.constants? with
    | none => cases empty : m.decl.isEmpty <;> simpa [consts, empty] using ih
    | some group =>
      have empty := Decl.isEmpty_of_constants? consts
      cases group with
      | nil => simpa [consts, empty] using ih
      | cons names rest => simpa [consts, empty] using ih

/-- Tidying lets lone constants join the group before them, and drops groups that are empty. -/
theorem SourceFile.tidy_joins (opts : Options) {f : SourceFile} (h : f.Over n)
    (bracketed : ∀ d, .gen d ∈ f.decls → d.Bracketed) :
    Yields (SourceFile.tidy opts) f fun _ f' =>
      ∃ groups, Joined f.constants groups ∧ f'.constants = groups.filter (· ≠ []) := by
  refine (SourceFile.tidy_stages opts h (fun _ => Tidy.gatherImports_constants)
    (fun _ => Tidy.flatten_constants) fun _ => Tidy.finish_constants).mono ?_
  rintro - f' ⟨lines, gathered, flat, first, second, last⟩
  have single : ∀ d ∈ f.decls, Groups.Single d := by
    intro d mem
    cases d with
    | func g => trivial
    | gen d => exact fun _ => bracketed d mem
  have single₁ := forall_mem_of_forall₂ (first.imp fun _ _ h => h.2) single
  have single₂ := forall_mem_of_forall₂ (second.imp fun _ _ h => h.2) single₁
  have same : flat.filterMap Decl.constants? = f.constants := by
    rw [filterMap_of_forall₂ (second.imp fun _ _ h => h.1),
      filterMap_of_forall₂ (first.imp fun _ _ h => h.1)]
    rfl
  have joined := @Groups.joined_mergeFrom f.comments lines none flat single₂
  rw [Option.toList_none, List.map_nil, List.nil_append, same] at joined
  refine ⟨_, joined, ?_⟩
  rw [← filterMap_filter_isEmpty]
  exact filterMap_of_forall₂ last

theorem flatten_filter_ne_nil {α : Type} [DecidableEq α] (groups : List (List α)) :
    (groups.filter (· ≠ [])).flatten = groups.flatten := by
  induction groups with
  | nil => rfl
  | cons group groups ih => cases group <;> simpa using ih

namespace SourceFile

/-- What tidying does to constants. They stay in order, and a group of them stands as a whole in
a group of the tidied file, from its own first place on unless it is a single spec. -/
theorem tidy_keeps_places {src : String} {f : SourceFile} {opts : Options}
    (read : SourceFile.parse src = .ok f) :
    ∃ f', (SourceFile.tidy opts).run f = .ok () f' ∧
      f'.constants.flatten = f.constants.flatten ∧
      ∀ group ∈ f.constants, group ≠ [] →
        ∃ group' ∈ f'.constants, ∃ k, group <+: group'.drop k ∧ (k ≠ 0 → group.length = 1) := by
  obtain ⟨_, f', run, groups, joined, left⟩ :=
    tidy_joins opts (over_of_parse read).1 (bracketed_of_parse read)
  refine ⟨f', run, ?_, fun group mem nonempty => ?_⟩
  · rw [left, flatten_filter_ne_nil, joined.flatten_eq]
  · obtain ⟨group', found, k, parts, lone⟩ := joined.exists_drop group mem nonempty
    refine ⟨group', ?_, k, parts, lone⟩
    rw [left, List.mem_filter, decide_eq_true_iff]
    refine ⟨found, ?_⟩
    rintro rfl
    rw [List.drop_nil] at parts
    exact nonempty (List.prefix_nil.mp parts)

/-- A group of two that a lone constant joins. -/
theorem tidy_keeps_places_of_group :
    ∃ f f', SourceFile.parse "package p\nconst (a = iota; b)\nconst c = iota\n" = .ok f ∧
      (SourceFile.tidy ⟨none, true, none, false, none⟩).run f = .ok () f' ∧
      f'.constants.flatten = f.constants.flatten ∧
      [[⟨"a", ⟨17, 18⟩⟩], [⟨"b", ⟨27, 28⟩⟩]] ∈ f.constants ∧
      ∃ group' ∈ f'.constants, ∃ k,
        [[⟨"a", ⟨17, 18⟩⟩], [⟨"b", ⟨27, 28⟩⟩]] <+: group'.drop k ∧ (k ≠ 0 → 2 = 1) := by
  generalize source : SourceFile.parse _ = parsed
  have constants : parsed.toOption.map SourceFile.constants =
      some [[[⟨"a", ⟨17, 18⟩⟩], [⟨"b", ⟨27, 28⟩⟩]], [[⟨"c", ⟨36, 37⟩⟩]]] := by
    rw [← source]
    decide +kernel
  cases parsed with
  | error e => nomatch constants
  | ok f =>
    obtain ⟨f', run, ordered, keeps⟩ := tidy_keeps_places source
    have groups : f.constants = _ := Option.some.inj constants
    have mem : [[⟨"a", ⟨17, 18⟩⟩], [⟨"b", ⟨27, 28⟩⟩]] ∈ f.constants := by simp [groups]
    exact ⟨f, f', rfl, run, ordered, mem, keeps _ mem (by simp)⟩

/-- Two lone constants that name `iota` become one group, in which it is not zero for both. -/
theorem tidy_moves_iota :
    ¬ ∀ src f f' opts, SourceFile.parse src = .ok f → (SourceFile.tidy opts).run f = .ok () f' →
      ∀ names place, (names, place) ∈ f.placed →
        ∃ group ∈ f'.constants, group[place]? = some names := by
  intro keeps
  generalize source : SourceFile.parse "package p\n\nconst a = iota\nconst b = iota\n" = parsed
  have before : parsed.toOption.map SourceFile.placed =
      some [([⟨"a", ⟨17, 18⟩⟩], 0), ([⟨"b", ⟨32, 33⟩⟩], 0)] := by
    rw [← source]
    decide +kernel
  have after : parsed.toOption.bind (EStateM.run' do
      SourceFile.tidy ⟨none, false, none, false, none⟩
      return (← get).constants) =
      some [[[⟨"a", ⟨17, 18⟩⟩], [⟨"b", ⟨32, 33⟩⟩]]] := by
    rw [← source]
    decide +kernel
  cases parsed with
  | error e => cases before
  | ok f =>
    obtain ⟨_, f', run, -⟩ := tidy_joins ⟨none, false, none, false, none⟩ (over_of_parse source).1
      (bracketed_of_parse source)
    change EStateM.run (SourceFile.tidy _) f = _ at run
    have placed : f.placed = _ := Option.some.inj before
    have mem : ([⟨"b", ⟨32, 33⟩⟩], 0) ∈ f.placed := by simp [placed]
    obtain ⟨group, found, first⟩ := keeps _ f f' _ source run _ _ mem
    have constants : f'.constants = [[[⟨"a", ⟨17, 18⟩⟩], [⟨"b", ⟨32, 33⟩⟩]]] := by
      change EStateM.run' _ f = _ at after
      delta EStateM.run' at after
      rw [EStateM.run_bind, run] at after
      exact Option.some.inj after
    rw [constants, List.mem_singleton] at found
    rw [found] at first
    revert first
    decide

end SourceFile

end GoLayout
