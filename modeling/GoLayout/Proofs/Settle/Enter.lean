import GoLayout.Proofs.Settle.Law

/-!
What is settled on entering a node, by the starts beside its parts.
-/

namespace GoLayout

variable {n : Nat}

open LineTable (Agree Clean)
open Landmark (InOrder)

/-- What landmarks are taken to be: a token does not end at an offset of `O`, and declarations among
the statements are known as such and close with one byte. -/
def Landmark.Clear (O : Nat → Prop) (k : Setting) : Landmark → Prop
  | .token s => ¬ O s.stop
  | .entry d => k.Local d ∧ d.Narrow
  | _ => True

variable {O Z : Nat → Prop} {k : Setting} {lo hi : Nat}

open Landmark (Clear)

/-! ### Parts in a row -/

theorem Landmark.Ends.clear {ls : List Landmark} {p : Nat} (ends : Landmark.Ends ls p)
    (h : InOrder (Clear O k) hi lo ls) : lo < p ∧ ¬ O p := by
  obtain ⟨front, s, rfl, rfl⟩ := ends
  obtain ⟨mid, first, real, clear, before, -⟩ := Landmark.inOrder_append.mp h
  exact ⟨Nat.lt_of_le_of_lt (Nat.le_trans first.le before) real, clear⟩

theorem Expr.clear {e : Expr} (h : InOrder (Clear O k) hi lo e.landmarks) :
    e.pos < e.stop ∧ ¬ O e.stop := (e.ends h).clear (Expr.extent h).2.2

theorem Expr.inRow {es : List Expr} (h : InOrder (Clear O k) hi lo (Expr.landmarksAll es)) :
    Span.InRow hi lo (es.map extentSpan) ∧ ∀ e ∈ es, e.pos < e.stop ∧ ¬ O e.stop := by
  induction es generalizing lo with
  | nil => exact ⟨h, nofun⟩
  | cons e es ih =>
    obtain ⟨mid, first, behind⟩ := Landmark.inOrder_append.mp h
    obtain ⟨low, high, inside⟩ := Expr.extent first
    obtain ⟨row, clear⟩ := ih (behind.widen high (Nat.le_refl hi))
    exact ⟨⟨low, inside.le, row⟩, List.forall_mem_cons.mpr ⟨Expr.clear first, clear⟩⟩

theorem Stmt.clear_of_definesErr {s : Stmt} (defines : s.definesErr)
    (h : InOrder (Clear O k) hi lo s.landmarks) : 0 < s.stop ∧ ¬ O s.stop := by
  cases s with
  | assign lhs op opPos rhs =>
    obtain ⟨wide, clear⟩ := (Stmt.ends_assign h).clear h
    exact ⟨Nat.zero_lt_of_lt wide, clear⟩
  | _ => nomatch defines

theorem Stmt.wide_of_checksErr {s : Stmt} (checks : s.checksErr)
    (h : InOrder (Clear O k) hi lo s.landmarks) : s.pos < s.stop := by
  obtain ⟨-, -, inside⟩ := Stmt.extent h
  cases s with
  | ifElse ifPos init cond body orElse =>
    obtain ⟨real, -, low, behind⟩ := inside
    exact Nat.lt_of_lt_of_le (Nat.lt_of_le_of_lt low real) behind.le
  | _ => nomatch checks

theorem Stmt.inRow {ss : List Stmt} (h : InOrder (Clear O k) hi lo (Stmt.landmarksAll ss)) :
    Span.InRow hi lo (ss.map extentSpan) ∧ Stmt.Placed O ss := by
  induction ss generalizing lo with
  | nil => exact ⟨h, .nil⟩
  | cons s ss ih =>
    obtain ⟨mid, first, behind⟩ := Landmark.inOrder_append.mp h
    obtain ⟨low, high, inside⟩ := Stmt.extent first
    obtain ⟨row, placed⟩ := ih (behind.widen high (Nat.le_refl hi))
    refine ⟨⟨low, inside.le, row⟩, ?_⟩
    cases ss with
    | nil => exact .singleton s
    | cons s' ss =>
      refine .cons_cons (fun defines checks => ?_) placed
      obtain ⟨positive, noEnd⟩ := Stmt.clear_of_definesErr defines first
      exact ⟨positive, noEnd, Stmt.wide_of_checksErr checks behind.left⟩

/-! ### Literals -/

namespace Tidy

/-- Entering a literal lays it out, whatever becomes of its elements as long as they keep their
places. -/
theorem spread_settles {lbrace rbrace : Span} {es : List Expr}
    (row : Span.InRow rbrace.start (lbrace.start + 1) (es.map Expr.extentSpan))
    (clear : ∀ e ∈ es, e.pos < e.stop ∧ ¬ O e.stop) :
    Settles n O (Span.Beside rbrace.start (lbrace.start + 1) (es.map Expr.extentSpan))
      (liftM (Expr.spread lbrace rbrace es) : Tidying PUnit) fun _ t =>
        ∀ es', List.Forall₂ Expr.Like es es' → Expr.LaidOut t lbrace rbrace es' := by
  refine .lift fun t cover clean => (Expr.spread_gives cover row fun e mem isStart => ?_).mono ?_
  · exact (clear e mem).2 (clean _ isStart (row.beside_stop_of_mem _ (List.mem_map_of_mem mem)))
  · rintro - t' ⟨gains, settled⟩
    refine ⟨gains.cover, gains.agree, fun t'' cover'' same es' alike => ?_⟩
    exact ((settled.of_agree row same).laidOut cover'' row fun e mem => (clear e mem).1).of_places
      (Expr.places_of_like alike)

variable {opts : Options}

theorem onExpr_settles (opts : Options) (ty : Option TypeExpr) {lbrace rbrace : Span}
    {es : List Expr} (row : Span.InRow rbrace.start (lbrace.start + 1) (es.map Expr.extentSpan))
    (clear : ∀ e ∈ es, e.pos < e.stop ∧ ¬ O e.stop) :
    Settles n O (Span.Beside rbrace.start (lbrace.start + 1) (es.map Expr.extentSpan))
      (onExpr opts (.composite ty lbrace es rbrace)) fun leave t =>
        leave = Pure.pure ∧
          ∀ es', List.Forall₂ Expr.Like es es' → Expr.LaidOut t lbrace rbrace es' :=
  (spread_settles row clear).last fun _ => ⟨_, rfl, fun _ _ laidOut => ⟨rfl, laidOut⟩⟩

/-! ### Fields

Which fields are to be merged is asked of the table, which stays as it is. -/

theorem look_quiet {α : Type} {f : LineTable → α} :
    Settles n O (fun _ => False) (liftM (do return f (← get) : Relining α) : Tidying α)
      fun _ _ => True :=
  .lift fun t cover _ => .get_bind (.pure ⟨cover, .refl t, fun _ _ _ => trivial⟩)

theorem sharingOpt_quiet (o : Option FieldList) : Settles n O (fun _ => False)
    (liftM (sharingOpt opts o) : Tidying (List Bool)) fun _ _ => True := by
  cases o with
  | none => exact .lift fun t cover _ => .pure ⟨cover, .refl t, fun _ _ _ => trivial⟩
  | some l => exact look_quiet

theorem onType_quiet {pos : Span} {elements : FieldList} : Settles n O (fun _ => False)
    (onType opts (.interface pos elements)) fun leave _ => ∃ marks : List Bool,
      ∀ elements', leave (.interface pos elements') =
        Pure.pure (.interface pos (elements'.mergeMarked marks)) :=
  Settles.last look_quiet fun marks => ⟨_, rfl, fun _ _ _ => ⟨marks, fun _ => rfl⟩⟩

theorem onSig_quiet (s : Signature) : Settles n O (fun _ => False) (onSig opts s) fun leave _ =>
    ∃ params results : List Bool, leave = fun s =>
      Pure.pure ⟨s.params.mergeMarked params, s.results.map (·.mergeMarked results)⟩ :=
  .quiet_bind look_quiet fun params _ => (sharingOpt_quiet s.results).last fun results =>
    ⟨_, rfl, fun _ _ _ _ => ⟨params, results, rfl⟩⟩

theorem onFunc_quiet (f : FuncDecl) : Settles n O (fun _ => False) (onFunc opts f) fun leave _ =>
    ∃ receiver typeParams : List Bool, leave = fun f => Pure.pure { f with
      receiver := f.receiver.map (·.mergeMarked receiver)
      typeParams := f.typeParams.map (·.mergeMarked typeParams) } :=
  .quiet_bind (sharingOpt_quiet f.receiver) fun receiver _ =>
    (sharingOpt_quiet f.typeParams).last fun typeParams =>
      ⟨_, rfl, fun _ _ _ _ => ⟨receiver, typeParams, rfl⟩⟩

/-! ### Blocks and clauses -/

theorem joinErrChecks_gives {t : LineTable} {ss : List Stmt} (cover : t.Over n)
    (placed : Stmt.Placed O ss) (clean : t.Clean O (Span.Ahead lo (ss.map Stmt.extentSpan))) :
    Gives (joinErrChecks opts ss) t fun _ t' =>
      t.Loses n (Span.Ahead lo (ss.map Stmt.extentSpan)) t' ∧
        (opts.extra → Stmt.Checked t' ss) := by
  unfold joinErrChecks
  split
  · refine (Stmt.joinErrChecks_gives cover placed clean).mono ?_
    exact fun _ _ ⟨loses, checked⟩ => ⟨loses, fun _ => checked⟩
  · rename_i plain
    exact .pure ⟨.refl cover, fun extra => absurd extra plain⟩

/-- Entering a block joins the lines at its ends and before the checks of errors in it. -/
theorem onBlock_settles (extra : k.extra = opts.extra) (rising : CommentGroup.Rising k.comments)
    {role : BlockRole} {lbrace rbrace : Span} {ss : List Stmt}
    (row : Span.InRow rbrace.start (lbrace.start + 1) (ss.map Stmt.extentSpan))
    (placed : Stmt.Placed O ss) :
    Settles n O (Span.Beside rbrace.start (lbrace.start + 1) (ss.map Stmt.extentSpan))
      (onBlock opts k.comments role ⟨lbrace, ss, rbrace⟩) fun leave t =>
        (leave = fun b => do
          modify (· - 1)
          return b) ∧
        ∀ ss', List.Forall₂ (Stmt.Like O k t) ss ss' →
          Block.Tidy k t role ⟨lbrace, ss', rbrace⟩ := by
  intro depth t cover clean
  have row' : Block.InRow ⟨lbrace, ss, rbrace⟩ := row
  have ahead : ∀ s, Span.Ahead (lbrace.start + 1) (ss.map Stmt.extentSpan) s →
      Span.Beside rbrace.start (lbrace.start + 1) (ss.map Stmt.extentSpan) s :=
    fun s => row.beside_of_ahead
  refine .bind (gives_lift (joinErrChecks_gives cover placed (clean.mono ahead)) depth) ?_
  rintro ⟨_, depth₁⟩ t₁ ⟨loses₁, checked⟩
  refine .bind (gives_lift (Block.trim_gives (role == .body) loses₁.cover row' rising) depth₁) ?_
  rintro ⟨_, depth₂⟩ t₂ ⟨loses₂, trimmed⟩
  refine .pure ⟨loses₂.cover, ((loses₁.mono ahead).trans loses₂).agree, ?_⟩
  refine fun t'' cover'' same => ⟨rfl, fun ss' alike => ⟨fun isExtra => ?_, fun isBody => ?_⟩⟩
  · have checked₂ : Stmt.Checked t₂ ss := (checked (extra ▸ isExtra)).of_loses loses₂
    exact Stmt.errsChecked_of_checked cover'' alike (checked₂.of_agree placed (same.mono ahead))
  · have clean₂ : t₂.Clean O (Block.Beside ⟨lbrace, ss, rbrace⟩) :=
      (clean.of_subset loses₁.fewer).of_subset loses₂.fewer
    exact Block.edged_of_trimmed cover'' rising row' (clean₂.of_agree same) alike
      ((trimmed (beq_iff_eq.mpr isBody)).of_agree row' rising same)

theorem joinErrChecks_settles (lo : Nat) (extra : k.extra = opts.extra) {ss : List Stmt}
    (placed : Stmt.Placed O ss) :
    Settles n O (Span.Ahead lo (ss.map Stmt.extentSpan))
      (liftM (joinErrChecks opts ss) : Tidying PUnit) fun _ t =>
        ∀ ss', List.Forall₂ (Stmt.Like O k t) ss ss' → k.extra → Stmt.ErrsChecked k t ss' := by
  refine .lift fun t cover clean => (joinErrChecks_gives cover placed clean).mono ?_
  rintro - t' ⟨loses, checked⟩
  refine ⟨loses.cover, loses.agree, fun t'' cover'' same ss' alike isExtra => ?_⟩
  exact Stmt.errsChecked_of_checked cover'' alike ((checked (extra ▸ isExtra)).of_agree placed same)

/-- Entering a clause joins its header, if this is short, and lines before checks of errors. -/
theorem joinHeader_gives {t : LineTable} (cover : t.Over n) (depth : Nat) {casePos colon : Span}
    {values : List Expr} {body : List Stmt} :
    Gives (Stmt.joinHeader k.comments depth (.caseClause casePos values colon body)) t fun _ t' =>
      t.Loses n (fun s => casePos.start < s ∧ s ≤ colon.start) t' := by
  refine .get_bind ?_
  dsimp only
  split
  · exact (LineTable.removeLines_loses cover fun s low high => ⟨low, high⟩).mono fun _ _ loses => loses.1
  · exact .pure (.refl cover)

end Tidy

/-! ### Declarations -/

namespace GenDecl

/-- The offsets between the keyword of a declaration and its only spec, and between that and the
parenthesis that closes the declaration. -/
def Beside (d : GenDecl) (s : Nat) : Prop :=
  ∃ spec, d.specs = [spec] ∧ (d.kwPos.start < s ∧ s ≤ spec.pos ∨
    spec.stop < s ∧ ∃ rparen ∈ d.rparen, s ≤ rparen.start)

variable {comments : List CommentGroup} {d : GenDecl} {spec : Spec} {t t' : LineTable}

theorem lead_le : d.lead comments spec ≤ spec.pos := by
  unfold lead
  cases isFirst : (CommentGroup.between comments d.kwPos.start spec.pos).head? with
  | none => exact Nat.le_refl _
  | some g => exact Nat.le_of_lt (CommentGroup.start_lt_of_mem_between (List.mem_of_head? isFirst))

/-- Joined lines are joined in every table with the same starts beside the spec. -/
theorem Joined.of_agree (single : d.specs = [spec]) (same : Agree d.Beside t t')
    (h : d.Joined comments t spec) : d.Joined comments t' spec where
  front := fun breaks => h.front ((same.breaks_iff fun _ low high =>
    ⟨spec, single, .inl ⟨low, Nat.le_trans high lead_le⟩⟩).mp breaks)
  behind := fun rparen isRight breaks => h.behind rparen isRight ((same.breaks_iff fun _ low high =>
    ⟨spec, single, .inr ⟨low, rparen, isRight, high⟩⟩).mp breaks)

theorem Flattened.of_agree {kwPos : Span} {rparen : Option Span} (same : Agree d.Beside t t')
    (h : d.Flattened comments t kwPos rparen) : d.Flattened comments t' kwPos rparen :=
  h.imp_right fun ⟨spec, single, rparen, kwPos, joined⟩ =>
    ⟨spec, single, rparen, kwPos, joined.of_agree single same⟩

/-- Entering a declaration joins lines in front of its spec and behind it. -/
theorem flatten_loses (cover : t.Over n) :
    Gives (d.flatten comments) t fun flat t' => t.Loses n d.Beside t' ∧
      d.Flattened comments t' flat.kwPos flat.rparen := by
  unfold GenDecl.flatten
  split
  · rename_i left right spec _ isRight single
    split
    · rename_i kept
      refine .pure ⟨.refl cover, .inl ⟨rfl, rfl, fun _ vars _ => .inr (.inr ?_)⟩⟩
      simpa [vars] using kept
    · refine .get_bind ?_
      extract_lets kwLine finish
      have behind : ∀ s, spec.stop < s → s ≤ right.start → d.Beside s := fun s low high =>
        ⟨spec, single, .inr ⟨low, right, isRight, high⟩⟩
      -- The lines in front are joined when the parentheses are dropped.
      have finish_gives : ∀ kwPos : Span, kwPos = d.kwPos ∨ kwPos = .point spec.pos → ∀ t₁ : LineTable,
          t.Loses n d.Beside t₁ → ¬ t₁.Breaks (d.kwPos.start + 1) (d.lead comments spec) →
          Gives (finish kwPos) t₁ fun flat t' => t.Loses n d.Beside t' ∧
            d.Flattened comments t' flat.kwPos flat.rparen := by
        intro kwPos place t₁ loses front
        refine .get_bind (.bind (LineTable.removeLines_loses loses.cover behind)
          fun _ t' ⟨loses', closed⟩ => ?_)
        refine .pure ⟨loses.trans loses', .inr ⟨spec, single, rfl, place, ⟨?_, fun rparen isRparen => ?_⟩⟩⟩
        · exact fun ⟨s, mem, within⟩ => front ⟨s, loses'.fewer s mem, within⟩
        · cases isRight.symm.trans isRparen
          exact closed
      have front : ∀ s, d.kwPos.start < s → s ≤ d.lead comments spec → d.Beside s :=
        fun s low high => ⟨spec, single, .inl ⟨low, Nat.le_trans high lead_le⟩⟩
      have joins : Gives (LineTable.removeLines kwLine (t.line (d.lead comments spec))) t fun _ t₁ =>
          t.Loses n d.Beside t₁ ∧ ¬ t₁.Breaks (d.kwPos.start + 1) (d.lead comments spec) :=
        LineTable.removeLines_loses cover front
      unfold lead at joins finish_gives
      split
      · rename_i none
        rw [none] at joins finish_gives
        exact .bind joins fun _ t₁ ⟨loses, front⟩ => finish_gives _ (.inl rfl) t₁ loses front
      · rename_i group isFirst
        rw [isFirst] at joins finish_gives
        exact .bind joins fun _ t₁ ⟨loses, front⟩ => finish_gives _ (.inr rfl) t₁ loses front
  · rename_i noGroup
    refine .pure ⟨.refl cover, .inl ⟨rfl, rfl, fun spec _ single => ?_⟩⟩
    cases isLeft : d.lparen with
    | none => exact .inl rfl
    | some left =>
      cases isRight : d.rparen with
      | none => exact .inr (.inl rfl)
      | some right => exact (noGroup left right spec isLeft isRight single).elim

end GenDecl

end GoLayout
