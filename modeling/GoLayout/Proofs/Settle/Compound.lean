import GoLayout.Proofs.Settle.Enter
import GoLayout.Proofs.Settle.Like

/-!
Nodes whose own layout is settled before that of their parts: literals, blocks, clauses and
declarations. What they settle lies beside their parts, so it stays settled.
-/

namespace GoLayout

variable {n : Nat} {O : Nat → Prop} {k : Setting} {opts : Options} {t : LineTable}

open LineTable (Agree Clean)
open Landmark (InOrder Clear)

namespace Tidy

/-- Over these landmarks the step makes something that is as `L` says and has tidy nodes. -/
def Remakes {α : Type} (n : Nat) (O : Nat → Prop) (k : Setting) (ls : List Landmark)
    (x : Tidying α) (L : LineTable → α → Prop) (nodes : α → List Node) : Prop :=
  Along n O (Clear O k) ls x fun a t => L t a ∧ AllTidy k t (nodes a)

end Tidy

open Tidy (Remakes Along Settles visitor Inside)

/-! ### Rows of parts -/

theorem Span.InRow.inside_of_anyInside {lo hi x : Nat} {spans : List Span} (h : InRow hi lo spans)
    (within : AnyInside spans x) : Inside lo hi x := by
  obtain ⟨s, mem, low, high⟩ := within
  obtain ⟨low', high'⟩ := h.between s mem
  exact ⟨by omega, by omega⟩

theorem Span.InRow.apart {lo hi x : Nat} {s : Span} {spans : List Span}
    (h : InRow hi lo (s :: spans)) (within : Inside s.start s.stop x) : ¬ AnyInside spans x := by
  intro within'
  have := (h.2.2.inside_of_anyInside within').1
  have := within.2
  omega

/-! ### Literals -/

theorem Expr.composite_remade {ty : Option TypeExpr} {lbrace rbrace : Span} {es : List Expr}
    (ofType : Remakes n O k (TypeExpr.landmarksOpt ty)
      (TypeExpr.visitOpt (visitor opts k.comments) ty) (fun _ => Option.Rel TypeExpr.Like ty)
      TypeExpr.nodesOpt)
    (ofElements : ∀ lo hi, InOrder (Clear O k) hi lo (Expr.landmarksAll es) →
      Settles n O (Span.AnyInside (es.map Expr.extentSpan))
        (Expr.visitAll (visitor opts k.comments) es)
        fun es' t => List.Forall₂ Expr.Like es es' ∧ AllTidy k t (Expr.nodesAll es')) :
    Remakes n O k (Expr.composite ty lbrace es rbrace).landmarks
      ((Expr.composite ty lbrace es rbrace).visit (visitor opts k.comments))
      (fun _ => (Expr.composite ty lbrace es rbrace).Like) Expr.nodes := by
  intro lo hi inOrder
  obtain ⟨mid, left, real, -, open_ge, right⟩ := Landmark.inOrder_append.mp inOrder
  obtain ⟨close, inside, real', -, close_ge, rest⟩ := Landmark.inOrder_append.mp right
  have real : lbrace.start < lbrace.stop := real
  have real' : rbrace.start < rbrace.stop := real'
  have open_ge : mid ≤ lbrace.start := open_ge
  have close_le : rbrace.stop ≤ hi := rest
  have elements : InOrder (Clear O k) rbrace.start (lbrace.start + 1) (Expr.landmarksAll es) :=
    inside.widen real close_ge
  obtain ⟨row, clear⟩ := Expr.inRow elements
  have low := left.le
  have apart : ∀ x, Span.Beside rbrace.start (lbrace.start + 1) (es.map Expr.extentSpan) x →
      ¬ (Inside lo mid x ∨ Span.AnyInside (es.map Expr.extentSpan) x) := by
    rintro x beside (within | within)
    · have := within.2
      have := beside.1
      omega
    · exact beside.2.2 within
  have parts : ∀ leave, (∃ t : LineTable, leave = Pure.pure ∧ ∀ es',
      List.Forall₂ Expr.Like es es' → Expr.LaidOut t lbrace rbrace es') →
      Settles n O (fun x => Inside lo mid x ∨ Span.AnyInside (es.map Expr.extentSpan) x)
        (do
          let ty ← TypeExpr.visitOpt (visitor opts k.comments) ty
          let es ← Expr.visitAll (visitor opts k.comments) es
          leave (.composite ty lbrace es rbrace))
        fun e' t => (leave = Pure.pure ∧ ∀ es', List.Forall₂ Expr.Like es es' →
          Expr.LaidOut t lbrace rbrace es') → (Expr.composite ty lbrace es rbrace).Like e' ∧
            AllTidy k t e'.nodes := by
    rintro leave ⟨_, rfl, -⟩
    refine .bind (ofType lo mid left) (fun x within within' => ?_) fun ty' _ =>
      (ofElements _ _ elements).last fun es' => ⟨_, rfl, ?_⟩
    · have := within.2
      have := (row.inside_of_anyInside within').1
      omega
    · rintro t - ⟨likes, tidyAll⟩ ⟨ofType, tidy⟩ ⟨-, laidOut⟩
      refine ⟨.of ?_ rfl rfl (fun _ => rfl) rfl, .node (laidOut es' likes) (tidy.append tidyAll)⟩
      cases ofType with
      | none => rfl
      | some like => exact like.pos
  refine ((Tidy.onExpr_settles opts ty row clear).bind apart parts).widen ?_
  rintro x (beside | within | within)
  · have := beside.1
    have := beside.2.1
    exact ⟨by omega, by omega⟩
  · have := elements.le
    exact ⟨within.1, by have := within.2; omega⟩
  · have := row.inside_of_anyInside within
    exact ⟨by have := this.1; omega, by have := this.2; omega⟩

/-- Expressions that settle what is within each of them. -/
theorem Expr.remadeAll_of {es : List Expr}
    (settle : ∀ lo hi, InOrder (Clear O k) hi lo (Expr.landmarksAll es) →
      Settles n O (Span.AnyInside (es.map Expr.extentSpan))
        (Expr.visitAll (visitor opts k.comments) es)
        fun es' t => List.Forall₂ Expr.Like es es' ∧ AllTidy k t (Expr.nodesAll es')) :
    Remakes n O k (Expr.landmarksAll es) (Expr.visitAll (visitor opts k.comments) es)
      (fun _ => List.Forall₂ Expr.Like es) Expr.nodesAll :=
  fun lo hi inOrder => (settle lo hi inOrder).widen
    fun _ => (Expr.inRow inOrder).1.inside_of_anyInside

/-! ### Blocks -/

theorem Block.remade_of {role : BlockRole} {lbrace rbrace : Span} {ss : List Stmt}
    (extra : k.extra = opts.extra) (rising : CommentGroup.Rising k.comments)
    (ofStmts : ∀ lo hi, InOrder (Clear O k) hi lo (Stmt.landmarksAll ss) →
      Settles n O (Span.AnyInside (ss.map Stmt.extentSpan))
        (Stmt.visitAll (visitor opts k.comments) ss)
        fun ss' t => List.Forall₂ (Stmt.Like O k t) ss ss' ∧ AllTidy k t (Stmt.nodesAll ss')) :
    Along n O (Clear O k) (Block.landmarks ⟨lbrace, ss, rbrace⟩)
      (Block.visit (visitor opts k.comments) role ⟨lbrace, ss, rbrace⟩) fun b' t =>
        (b'.lbrace = lbrace ∧ b'.rbrace = rbrace) ∧ b'.Tidy k t role ∧ AllTidy k t b'.nodes := by
  rintro lo hi ⟨real, -, low, right⟩
  obtain ⟨close, inside, real', -, close_ge, rest⟩ := Landmark.inOrder_append.mp right
  have real : lbrace.start < lbrace.stop := real
  have real' : rbrace.start < rbrace.stop := real'
  have low : lo ≤ lbrace.start := low
  have close_le : rbrace.stop ≤ hi := rest
  have stmts : InOrder (Clear O k) rbrace.start (lbrace.start + 1) (Stmt.landmarksAll ss) :=
    inside.widen real close_ge
  obtain ⟨row, placed⟩ := Stmt.inRow stmts
  refine ((Tidy.onBlock_settles extra rising row placed).bind (fun x beside => beside.2.2) ?_).widen ?_
  · rintro leave ⟨_, rfl, -⟩
    refine (ofStmts _ _ stmts).bind_quiet fun ss' => .modify_bind (.pure fun t _ => ?_)
    rintro ⟨alike, tidyAll⟩ ⟨-, tidy⟩
    exact ⟨⟨rfl, rfl⟩, tidy ss' alike, tidyAll⟩
  · rintro x (beside | within)
    · have := beside.1
      have := beside.2.1
      exact ⟨by omega, by omega⟩
    · have := row.inside_of_anyInside within
      exact ⟨by have := this.1; omega, by have := this.2; omega⟩

/-! ### Clauses -/

/-- A clause settles the checks of errors in its body on entering, then its header, then the
statements of the body. -/
theorem Stmt.clause_settles {lo hi : Nat} {α : Type} {x : Tidy.Tidying α} {g : α → List Stmt → Stmt}
    {colon : Span} {body : List Stmt} {Q : α → LineTable → Prop} {R : Stmt → LineTable → Prop}
    (extra : k.extra = opts.extra) (low : lo ≤ colon.start) (real : colon.start < colon.stop)
    (inOrder : InOrder (Clear O k) hi colon.stop (Stmt.landmarksAll body))
    (header : Settles n O (fun s => lo < s ∧ s ≤ colon.start) x Q)
    (ofBody : Settles n O (Span.AnyInside (body.map Stmt.extentSpan))
      (Stmt.visitAll (visitor opts k.comments) body)
      fun body' t => List.Forall₂ (Stmt.Like O k t) body body' ∧ AllTidy k t (Stmt.nodesAll body'))
    (done : ∀ a body' t, Q a t → List.Forall₂ (Stmt.Like O k t) body body' →
      AllTidy k t (Stmt.nodesAll body') → (k.extra → Stmt.ErrsChecked k t body') →
      R (g a body') t) :
    Settles n O (Inside lo hi) (do
      Tidy.joinErrChecks opts body
      let a ← x
      let body ← Stmt.visitAll (visitor opts k.comments) body
      return g a body) R := by
  obtain ⟨row, placed⟩ := Stmt.inRow inOrder
  have behind : Settles n O
      (fun s => (lo < s ∧ s ≤ colon.start) ∨ Span.AnyInside (body.map Stmt.extentSpan) s)
      (do
        let a ← x
        let body ← Stmt.visitAll (visitor opts k.comments) body
        return g a body)
      fun s t => (∀ body', List.Forall₂ (Stmt.Like O k t) body body' → k.extra →
        Stmt.ErrsChecked k t body') → R s t := by
    refine header.bind (fun s within within' => ?_) fun a _ => ofBody.last fun body' => ⟨_, rfl, ?_⟩
    · have := within.2
      have := (row.inside_of_anyInside within').1
      omega
    · exact fun t _ ⟨alike, tidyAll⟩ ofHeader checked =>
        done a body' t ofHeader alike tidyAll (checked body' alike)
  refine ((Tidy.joinErrChecks_settles colon.stop extra placed).bind (fun s ahead within => ?_)
    fun _ _ => behind).widen ?_
  · have beside := row.beside_of_ahead ahead
    rcases within with within | within
    · have := within.2
      have := beside.1
      omega
    · exact beside.2.2 within
  · have := row.le
    rintro s (ahead | within | within)
    · have := row.lt_of_ahead ahead
      have := (row.beside_of_ahead ahead).1
      exact ⟨by omega, by omega⟩
    · exact ⟨within.1, by have := within.2; omega⟩
    · have := row.inside_of_anyInside within
      exact ⟨by have := this.1; omega, this.2⟩

theorem Stmt.caseClause_remade {casePos colon : Span} {values : List Expr} {body : List Stmt}
    (extra : k.extra = opts.extra)
    (ofValues : Remakes n O k (Expr.landmarksAll values)
      (Expr.visitAll (visitor opts k.comments) values) (fun _ => List.Forall₂ Expr.Like values)
      Expr.nodesAll)
    (ofBody : ∀ lo hi, InOrder (Clear O k) hi lo (Stmt.landmarksAll body) →
      Settles n O (Span.AnyInside (body.map Stmt.extentSpan))
        (Stmt.visitAll (visitor opts k.comments) body)
        fun body' t => List.Forall₂ (Stmt.Like O k t) body body' ∧
          AllTidy k t (Stmt.nodesAll body')) :
    Remakes n O k (Stmt.caseClause casePos values colon body).landmarks
      ((Stmt.caseClause casePos values colon body).visit (visitor opts k.comments))
      (Stmt.Like O k · (.caseClause casePos values colon body)) Stmt.nodes := by
  rintro lo hi ⟨real, -, low, inOrder⟩
  obtain ⟨mid, between, real', -, mid_le, behind⟩ := Landmark.inOrder_append.mp inOrder
  have real : casePos.start < casePos.stop := real
  have mid_le : mid ≤ colon.start := mid_le
  have low' : casePos.stop ≤ mid := between.le
  obtain ⟨header, isHeader⟩ : ∃ x : Tidy.Tidying (List Expr), x = (do
      let depth ← get
      (Stmt.caseClause casePos values colon body).joinHeader k.comments depth
      Expr.visitAll (visitor opts k.comments) values) := ⟨_, rfl⟩
  have visit : (Stmt.caseClause casePos values colon body).visit (visitor opts k.comments) = (do
      Tidy.joinErrChecks opts body
      let values ← header
      let body ← Stmt.visitAll (visitor opts k.comments) body
      return .caseClause casePos values colon body) := by
    simp [isHeader, Stmt.visit, visitor, Tidy.onStmt]
  have ofHeader : Settles n O (fun s => casePos.start < s ∧ s ≤ colon.start) header
      fun values' t => List.Forall₂ Expr.Like values values' ∧ AllTidy k t (Expr.nodesAll values') := by
    rw [isHeader]
    refine .depth_bind fun depth => .joins_bind (fun t cover => ?_) ((ofValues _ _ between).widen ?_)
    · exact (Tidy.joinHeader_gives cover depth).mono fun _ _ loses =>
        ⟨loses.cover, loses.fewer, loses.agree⟩
    · rintro s ⟨low, high⟩
      have low : casePos.stop < s := low
      exact ⟨by omega, by omega⟩
  rw [visit]
  refine (Stmt.clause_settles extra (by omega) real' behind ofHeader (ofBody _ _ behind) ?_).widen ?_
  · rintro values' body' t ⟨-, tidyValues⟩ likes tidyBody checked
    exact ⟨⟨.inl rfl, Stmt.lastStop_of_like likes colon.stop, nofun, nofun⟩,
      .node checked (tidyValues.append tidyBody)⟩
  · exact fun s within => ⟨Nat.lt_of_le_of_lt low within.1, within.2⟩

theorem Stmt.commClause_remade {casePos colon : Span} {comm : Option Stmt} {body : List Stmt}
    (extra : k.extra = opts.extra)
    (ofComm : Remakes n O k (Stmt.landmarksOpt comm)
      (Stmt.visitOpt (visitor opts k.comments) comm)
      (fun t => Option.Rel (Stmt.Like O k t) comm) Stmt.nodesOpt)
    (ofBody : ∀ lo hi, InOrder (Clear O k) hi lo (Stmt.landmarksAll body) →
      Settles n O (Span.AnyInside (body.map Stmt.extentSpan))
        (Stmt.visitAll (visitor opts k.comments) body)
        fun body' t => List.Forall₂ (Stmt.Like O k t) body body' ∧
          AllTidy k t (Stmt.nodesAll body')) :
    Remakes n O k (Stmt.commClause casePos comm colon body).landmarks
      ((Stmt.commClause casePos comm colon body).visit (visitor opts k.comments))
      (Stmt.Like O k · (.commClause casePos comm colon body)) Stmt.nodes := by
  rintro lo hi ⟨real, -, low, inOrder⟩
  obtain ⟨mid, between, real', -, mid_le, behind⟩ := Landmark.inOrder_append.mp inOrder
  have real : casePos.start < casePos.stop := real
  have mid_le : mid ≤ colon.start := mid_le
  have low' : casePos.stop ≤ mid := between.le
  have visit : (Stmt.commClause casePos comm colon body).visit (visitor opts k.comments) = (do
      Tidy.joinErrChecks opts body
      let comm ← Stmt.visitOpt (visitor opts k.comments) comm
      let body ← Stmt.visitAll (visitor opts k.comments) body
      return .commClause casePos comm colon body) := by
    simp [Stmt.visit, visitor, Tidy.onStmt]
  rw [visit]
  have ofHeader : Settles n O (fun s => casePos.start < s ∧ s ≤ colon.start)
      (Stmt.visitOpt (visitor opts k.comments) comm)
      fun comm' t => Option.Rel (Stmt.Like O k t) comm comm' ∧ AllTidy k t (Stmt.nodesOpt comm') := by
    refine (ofComm _ _ between).widen ?_
    rintro s ⟨low, high⟩
    have low : casePos.stop < s := low
    exact ⟨by omega, by omega⟩
  refine (Stmt.clause_settles extra (by omega) real' behind ofHeader (ofBody _ _ behind) ?_).widen ?_
  · rintro comm' body' t ⟨-, tidyComm⟩ likes tidyBody checked
    exact ⟨⟨.inl rfl, Stmt.lastStop_of_like likes colon.stop, nofun, nofun⟩,
      .node checked (tidyComm.append tidyBody)⟩
  · exact fun s within => ⟨Nat.lt_of_le_of_lt low within.1, within.2⟩

/-! ### Declarations -/

/-- What a declaration settles is what its specs do. It joins lines beside these. -/
theorem GenDecl.visit_gives {d : GenDecl} {Z : Nat → Prop} {t : LineTable}
    (ofSpecs : Settles n O Z (Spec.visitAll (visitor opts k.comments) d.specs) fun specs t =>
      List.Forall₂ Spec.Like d.specs specs ∧ AllTidy k t (Spec.nodesAll specs))
    (cover : t.Over n) (clean : t.Clean O Z) (depth : Nat) :
    Gives ((d.visit (visitor opts k.comments)).run depth) t fun r t' => t'.Over n ∧
      (∃ t₁, t.Loses n d.Beside t₁ ∧ Agree (fun s => ¬ Z s) t₁ t' ∧
        ∀ t'', Agree d.Beside t₁ t'' → t''.Over n → Agree Z t' t'' → d.Like k.comments t'' r.1) ∧
      ∀ t'', t''.Over n → Agree Z t' t'' → AllTidy k t'' r.1.nodes := by
  obtain ⟨doc, kwPos, kind, lparen, specs, rparen⟩ := d
  have enter : Gives ((Tidy.onDecl k.comments ⟨doc, kwPos, kind, lparen, specs, rparen⟩).run depth) t
      fun r t' => t.Loses n (GenDecl.Beside ⟨doc, kwPos, kind, lparen, specs, rparen⟩) t' ∧
        ∃ flat : GenDecl, r.1 = (fun d => pure { d with
          kwPos := flat.kwPos, lparen := flat.lparen, rparen := flat.rparen }) ∧
          GenDecl.Flattened k.comments t' ⟨doc, kwPos, kind, lparen, specs, rparen⟩ flat.kwPos
            flat.rparen :=
    .bind (Tidy.gives_lift (GenDecl.flatten_loses cover) depth)
      fun _ _ ⟨loses, edges⟩ => .pure ⟨loses, _, rfl, edges⟩
  refine .bind enter ?_
  rintro ⟨leave, depth₁⟩ t₁ ⟨loses, flat, rfl, edges⟩
  refine .bind (ofSpecs depth₁ t₁ loses.cover (clean.of_subset loses.fewer)) ?_
  rintro ⟨specs', depth₂⟩ t₂ ⟨cover₂, kept, settled⟩
  refine .pure ⟨cover₂, ⟨t₁, loses, kept, fun t'' beside cover'' same => ?_⟩, fun t'' cover'' same =>
    .node trivial (settled t'' cover'' same).2⟩
  exact ⟨rfl, (settled t'' cover'' same).1, edges.of_agree beside⟩

theorem GenDecl.specs_inOrder {ok : Landmark → Prop} {lo hi : Nat} {d : GenDecl}
    (h : InOrder ok hi lo d.landmarks) : ∃ mid,
      (lo ≤ d.kwPos.start ∧ d.kwPos.start < d.kwPos.stop) ∧
      InOrder ok mid d.kwPos.stop (Spec.landmarksAll d.specs) ∧ mid ≤ hi ∧
      (∀ rparen ∈ d.rparen, mid ≤ rparen.start ∧ rparen.start < rparen.stop ∧ rparen.stop ≤ hi) ∧
      (d.lparen = none → d.rparen = none) := by
  match d, h with
  | ⟨_, kwPos, _, some lparen, specs, some rparen⟩, ⟨real, _, low, real', _, behind, rest⟩ =>
    obtain ⟨close, inside, realEnd, -, close_ge, close_le⟩ := Landmark.inOrder_append.mp rest
    have below : kwPos.stop ≤ lparen.stop := Nat.le_trans behind (Landmark.Real.le real')
    have wide : rparen.start < rparen.stop := realEnd
    have high : rparen.stop ≤ hi := close_le
    have le : close ≤ rparen.start := close_ge
    refine ⟨close, ⟨low, real⟩, inside.widen below (Nat.le_refl _), by omega, ?_, nofun⟩
    rintro _ ⟨⟩
    exact ⟨close_ge, wide, high⟩
  | ⟨_, _, _, none, [spec], none⟩, ⟨real, _, low, rest⟩ =>
    refine ⟨hi, ⟨low, real⟩, ?_, Nat.le_refl hi, nofun, fun _ => rfl⟩
    change InOrder ok hi _ (spec.landmarks ++ [])
    rwa [List.append_nil]
  | ⟨_, _, _, some _, _, none⟩, h => exact h.1.elim
  | ⟨_, _, _, none, [], _⟩, h => exact h.1.elim
  | ⟨_, _, _, none, [_], some _⟩, h => exact h.1.elim
  | ⟨_, _, _, none, _ :: _ :: _, _⟩, h => exact h.1.elim

theorem Spec.inRow {ok : Landmark → Prop} {lo hi : Nat} {specs : List Spec}
    (h : InOrder ok hi lo (Spec.landmarksAll specs)) :
    Span.InRow hi lo (specs.map Spec.extent) := by
  induction specs generalizing lo with
  | nil => exact h
  | cons s specs ih =>
    obtain ⟨mid, first, behind⟩ := Landmark.inOrder_append.mp h
    obtain ⟨low, high, inside⟩ := Spec.extent_inOrder first
    exact ⟨low, inside.le, ih (behind.widen high (Nat.le_refl hi))⟩

/-- A declaration settles its specs between its landmarks. -/
theorem GenDecl.remade_of {d : GenDecl}
    (ofSpecs : ∀ lo hi, InOrder (Clear O k) hi lo (Spec.landmarksAll d.specs) →
      Settles n O (Span.AnyInside (d.specs.map Spec.extent))
        (Spec.visitAll (visitor opts k.comments) d.specs) fun specs t =>
          List.Forall₂ Spec.Like d.specs specs ∧ AllTidy k t (Spec.nodesAll specs)) :
    Remakes n O k d.landmarks (d.visit (visitor opts k.comments)) (d.Like k.comments)
      GenDecl.nodes := by
  intro lo hi inOrder depth t cover clean
  obtain ⟨mid, ⟨low, wide⟩, specs, high, close, -⟩ := GenDecl.specs_inOrder inOrder
  have row := Spec.inRow specs
  have inside : ∀ x, Span.AnyInside (d.specs.map Spec.extent) x → Inside lo hi x := by
    intro x within
    have := row.inside_of_anyInside within
    exact ⟨by have := this.1; omega, by have := this.2; omega⟩
  have beside : ∀ x, d.Beside x →
      Inside lo hi x ∧ ¬ Span.AnyInside (d.specs.map Spec.extent) x := by
    rintro x ⟨spec, single, place⟩
    rw [single] at specs ⊢
    obtain ⟨low', high', inside⟩ := Spec.extent_inOrder specs.left
    have wide' := ((spec.ends specs.left).clear inside).1
    have only : Span.AnyInside ([spec].map Spec.extent) x ↔ spec.pos < x ∧ x < spec.stop := by
      simp [Span.AnyInside, Inside, Spec.extent]
    rw [only]
    rcases place with ⟨behind, le⟩ | ⟨behind, rparen, isRight, le⟩
    · exact ⟨⟨by omega, by omega⟩, by omega⟩
    · obtain ⟨-, real, le'⟩ := close rparen isRight
      exact ⟨⟨by omega, by omega⟩, by omega⟩
  refine (GenDecl.visit_gives (ofSpecs _ _ specs) cover (clean.mono inside) depth).mono ?_
  rintro r t' ⟨cover', ⟨t₁, loses, kept, alike⟩, settled⟩
  refine ⟨cover', ?_, fun t'' cover'' same => ⟨alike t'' ?_ cover'' (same.mono inside),
    settled t'' cover'' (same.mono inside)⟩⟩
  · exact (loses.mono fun x within => (beside x within).1).agree.trans
      (kept.mono fun s out within => out (inside s within))
  · exact (kept.mono fun x within => (beside x within).2).trans
      (same.mono fun x within => (beside x within).1)

/-- What is known of a declaration where it is read among the statements. -/
theorem GenDecl.holds_of_inOrder {lo hi : Nat} {d : GenDecl}
    (h : InOrder (Clear O k) hi lo (Stmt.decl d).landmarks) : k.Holds O d := by
  obtain ⟨isLocal, narrow⟩ := h.2.1
  have inOrder : InOrder (Clear O k) hi lo d.landmarks := h.tail
  have inside : InOrder (Clear O k) d.stop d.pos d.landmarks := (Stmt.extent h).2.2.tail
  obtain ⟨mid, -, specs, high, -, paired⟩ := GenDecl.specs_inOrder inside
  refine ⟨isLocal, paired, fun spec mem => ?_, narrow, ((d.ends inOrder).clear inOrder).2⟩
  obtain ⟨low, le⟩ := (Spec.inRow specs).between _ (List.mem_map_of_mem (f := Spec.extent) mem)
  exact Nat.le_trans ((Spec.inRow specs).wide _ (List.mem_map_of_mem mem)) (Nat.le_trans le high)

open Tidy in
/-- A declaration among the statements, which may become an assignment. -/
theorem Stmt.decl_remade {d : GenDecl}
    (ofDecl : Remakes n O k d.landmarks (d.visit (visitor opts k.comments)) (d.Like k.comments)
      GenDecl.nodes) :
    Remakes n O k (Stmt.decl d).landmarks ((Stmt.decl d).visit (visitor opts k.comments))
      (Stmt.Like O k · (.decl d)) Stmt.nodes := by
  intro lo hi inOrder
  have holds := GenDecl.holds_of_inOrder inOrder
  refine (ofDecl lo hi inOrder.tail).last fun d' => ⟨assignment (.decl d'), rfl, ?_⟩
  rintro t - ⟨like, tidy⟩
  exact ⟨Stmt.like_assignment holds like, .assignment (.node trivial tidy)⟩

/-! ### Specs of values -/

theorem Spec.inOrder_value {ok : Landmark → Prop} {lo hi : Nat} {doc comment : Link}
    {names : List Ident} {type : Option TypeExpr} {assign : Option Span} {values : List Expr}
    (h : InOrder ok hi lo (Spec.valueSpec doc names type assign values comment).landmarks) :
    (∃ name rest, names = name :: rest) ∧ InOrder ok hi lo (names.map Ident.landmark ++
      TypeExpr.landmarksOpt type ++ (assign.toList.map .token ++ Expr.landmarksAll values)) := by
  match names, assign, values, h with
  | name :: names, none, [], h => exact ⟨⟨name, names, rfl⟩, (List.append_nil _).symm ▸ h⟩
  | name :: names, some assign, value :: values, h => exact ⟨⟨name, names, rfl⟩, h⟩
  | [], _, _, h => exact h.1.elim
  | _ :: _, none, _ :: _, h => exact h.1.elim
  | _ :: _, some _, [], h => exact h.1.elim

theorem Spec.value_remade {doc comment : Link} {names : List Ident} {type : Option TypeExpr}
    {assign : Option Span} {values : List Expr}
    (ofType : Remakes n O k (TypeExpr.landmarksOpt type)
      (TypeExpr.visitOpt (visitor opts k.comments) type) (fun _ => Option.Rel TypeExpr.Like type)
      TypeExpr.nodesOpt)
    (ofValues : Remakes n O k (Expr.landmarksAll values)
      (Expr.visitAll (visitor opts k.comments) values) (fun _ => List.Forall₂ Expr.Like values)
      Expr.nodesAll) :
    Remakes n O k (Spec.valueSpec doc names type assign values comment).landmarks
      ((Spec.valueSpec doc names type assign values comment).visit (visitor opts k.comments))
      (fun _ => (Spec.valueSpec doc names type assign values comment).Like) Spec.nodes := by
  intro lo hi inOrder
  obtain ⟨⟨name, rest, rfl⟩, parts⟩ := Spec.inOrder_value inOrder
  have remade : Remakes n O k ((name :: rest).map Ident.landmark ++ TypeExpr.landmarksOpt type ++
      (assign.toList.map .token ++ Expr.landmarksAll values))
      ((Spec.valueSpec doc (name :: rest) type assign values comment).visit
        (visitor opts k.comments))
      (fun _ => (Spec.valueSpec doc (name :: rest) type assign values comment).Like) Spec.nodes :=
    .assoc (.past (.bind ofType fun _ _ => .past (.last ofValues fun _ => ⟨_, rfl,
      fun _ _ ⟨likes, tidyValues⟩ ⟨like, tidyType⟩ =>
        ⟨Spec.like_value like likes, tidyType.append tidyValues⟩⟩)))
  exact remade lo hi parts

end GoLayout
