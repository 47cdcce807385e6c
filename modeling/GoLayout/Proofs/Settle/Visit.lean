import GoLayout.Proofs.Settle.Compound

/-!
Tidying the nodes of a tree, from the types and expressions down to the statements. Over landmarks
in order each node keeps to the offsets between its own, with what it settles on entering beside its
parts, so all nodes are tidy in the end.
-/

namespace GoLayout

variable {n : Nat} {O : Nat → Prop} {k : Setting} {opts : Options} {t : LineTable}

open LineTable (Agree Clean)
open Landmark (InOrder Clear)
open Tidy (Remakes Along Settles visitor Inside)

section Visiting

set_option linter.unusedSectionVars false

variable (extra : k.extra = opts.extra) (rising : CommentGroup.Rising k.comments)

include extra rising

mutual

theorem Expr.remade : ∀ e : Expr, Remakes n O k e.landmarks (e.visit (visitor opts k.comments))
    (fun _ => e.Like) Expr.nodes
  | .ident _ => .pure_bind (.pure fun _ _ => ⟨.refl _, .node trivial .nil⟩)
  | .literal _ => .pure_bind (.pure fun _ _ =>
    ⟨.of (congrArg Span.start (Tidy.modernized_span ..)) (congrArg Span.stop (Tidy.modernized_span ..))
      rfl (fun _ => rfl) rfl, .node trivial .nil⟩)
  | .func _ sig body => .pure_bind (.behind (.bind sig.remade fun _ _ =>
    .last (body.remade .body) fun _ => ⟨_, rfl, fun _ _ ⟨⟨_, close⟩, law, tidy⟩ ⟨_, sigTidy⟩ =>
      ⟨.of rfl (congrArg Span.stop close) rfl (fun _ => rfl) rfl, .node law (sigTidy.append tidy)⟩⟩))
  | .composite ty _ elements _ => Expr.composite_remade (TypeExpr.remadeOpt ty) (Expr.settleAll elements)
  | .paren _ inner _ => .pure_bind (.behind (.before (.last inner.remade fun _ =>
    ⟨_, rfl, fun _ _ ⟨_, tidy⟩ => ⟨.of rfl rfl rfl (fun _ => rfl) rfl, .node trivial tidy⟩⟩)))
  | .selector operand _ _ => .pure_bind (.before (.last operand.remade fun _ =>
    ⟨_, rfl, fun _ _ ⟨like, tidy⟩ =>
      ⟨.of like.pos rfl rfl (fun _ => rfl) rfl, .node trivial tidy⟩⟩))
  | .index operand _ indices _ => .pure_bind (.bind operand.remade fun _ _ =>
    .behind (.before (.last (Expr.remadeAll_of (Expr.settleAll indices)) fun _ =>
      ⟨_, rfl, fun _ _ ⟨_, tidyAll⟩ ⟨like, tidy⟩ =>
        ⟨.of like.pos rfl rfl (fun _ => rfl) rfl, .node trivial (tidy.append tidyAll)⟩⟩)))
  | .slice operand _ lo hi max _ _ => .pure_bind (.bind operand.remade fun _ _ =>
    .behind (.before (.assoc (.bind (Expr.remadeOpt lo) fun _ _ =>
      .bind (Expr.remadeOpt hi) fun _ _ => .last (Expr.remadeOpt max) fun _ =>
        ⟨_, rfl, fun _ _ ⟨_, ofMax⟩ ⟨_, ofHi⟩ ⟨_, ofLo⟩ ⟨like, tidy⟩ =>
          ⟨.of like.pos rfl rfl (fun _ => rfl) rfl,
            .node trivial (((tidy.append ofLo).append ofHi).append ofMax)⟩⟩))))
  | .assertion operand _ _ ty _ => .pure_bind (.bind operand.remade fun _ _ =>
    .behind (.behind (.before (.last (TypeExpr.remadeOpt ty) fun _ =>
      ⟨_, rfl, fun _ _ ⟨_, ofType⟩ ⟨like, tidy⟩ =>
        ⟨.of like.pos rfl rfl (fun _ => rfl) rfl, .node trivial (tidy.append ofType)⟩⟩))))
  | .call fn _ args _ _ => .pure_bind (.bind fn.remade fun _ _ =>
    .behind (.before (.last (Expr.remadeAll_of (Expr.settleAll args)) fun _ =>
      ⟨_, rfl, fun _ _ ⟨_, tidyAll⟩ ⟨like, tidy⟩ =>
        ⟨.of like.pos rfl rfl (fun _ => rfl) rfl, .node trivial (tidy.append tidyAll)⟩⟩)))
  | .unary _ _ operand => .pure_bind (.behind (.last operand.remade fun _ =>
    ⟨_, rfl, fun _ _ ⟨like, tidy⟩ =>
      ⟨.of rfl like.stop rfl (fun _ => rfl) rfl, .node trivial tidy⟩⟩))
  | .binary left _ _ right => .pure_bind (.bind left.remade fun _ _ =>
    .behind (.last right.remade fun _ => ⟨_, rfl, fun _ _ ⟨ofRight, tidyRight⟩ ⟨ofLeft, tidyLeft⟩ =>
      ⟨.of ofLeft.pos ofRight.stop rfl (fun _ => rfl)
        (by simp only [Expr.comparesErr_binary, ofLeft.name, ofRight.name]),
        .node trivial (tidyLeft.append tidyRight)⟩⟩))
  | .keyValue key _ value => .pure_bind (.bind key.remade fun _ _ =>
    .behind (.last value.remade fun _ => ⟨_, rfl, fun _ _ ⟨ofValue, tidyValue⟩ ⟨ofKey, tidyKey⟩ =>
      ⟨.of ofKey.pos ofValue.stop rfl (fun _ => rfl) rfl,
        .node trivial (tidyKey.append tidyValue)⟩⟩))
  | .type t => .pure_bind (.last t.remade fun _ => ⟨_, rfl, fun _ _ ⟨like, tidy⟩ =>
      ⟨.of like.pos like.stop rfl (fun _ => rfl) rfl, .node trivial tidy⟩⟩)

theorem Expr.remadeOpt : ∀ o : Option Expr, Remakes n O k (Expr.landmarksOpt o)
    (Expr.visitOpt (visitor opts k.comments) o) (fun _ => Option.Rel Expr.Like o) Expr.nodesOpt
  | none => .pure fun _ _ => ⟨.none, .nil⟩
  | some e => .last e.remade fun _ => ⟨_, rfl, fun _ _ ⟨like, tidy⟩ => ⟨.some like, tidy⟩⟩

theorem Expr.settleAll : ∀ (es : List Expr) (lo hi : Nat),
    InOrder (Clear O k) hi lo (Expr.landmarksAll es) →
      Settles n O (Span.AnyInside (es.map Expr.extentSpan))
        (Expr.visitAll (visitor opts k.comments) es)
        fun es' t => List.Forall₂ Expr.Like es es' ∧ AllTidy k t (Expr.nodesAll es')
  | [], _, _, _ => .pure fun _ _ => ⟨.nil, .nil⟩
  | e :: es, lo, hi, inOrder => by
    obtain ⟨row, -⟩ := Expr.inRow inOrder
    have first := e.remade _ _ (Expr.extent inOrder.left).2.2
    have behind := Expr.settleAll es lo hi inOrder.right
    refine (first.bind (fun _ => row.apart) fun _ _ => behind.last fun _ => ⟨_, rfl, ?_⟩).widen ?_
    · exact fun _ _ ⟨likes, tidyAll⟩ ⟨like, tidy⟩ => ⟨.cons like likes, tidy.append tidyAll⟩
    · exact fun _ => Span.anyInside_cons (s := e.extentSpan).mpr

theorem TypeExpr.remade : ∀ t : TypeExpr, Remakes n O k t.landmarks
    (t.visit (visitor opts k.comments)) (fun _ => t.Like) TypeExpr.nodes
  | .named _ _ => .pure_bind (.pure fun _ _ => ⟨⟨rfl, rfl⟩, .node trivial .nil⟩)
  | .generic _ _ _ args _ => .pure_bind (.past (.behind (.before (.last (TypeExpr.remadeAll args)
    fun _ => ⟨_, rfl, fun _ _ ⟨_, tidy⟩ => ⟨⟨rfl, rfl⟩, .node trivial tidy⟩⟩))))
  | .pointer _ elem => .pure_bind (.behind (.last elem.remade fun _ =>
    ⟨_, rfl, fun _ _ ⟨like, tidy⟩ => ⟨⟨rfl, like.stop⟩, .node trivial tidy⟩⟩))
  | .array _ len _ elem => .pure_bind (.behind (.bind len.remade fun _ _ =>
    .behind (.last elem.remade fun _ => ⟨_, rfl, fun _ _ ⟨like, tidy⟩ ⟨_, ofLen⟩ =>
      ⟨⟨rfl, like.stop⟩, .node trivial (ofLen.append tidy)⟩⟩)))
  | .countedArray _ _ _ elem => .pure_bind (.behind (.behind (.behind (.last elem.remade fun _ =>
    ⟨_, rfl, fun _ _ ⟨like, tidy⟩ => ⟨⟨rfl, like.stop⟩, .node trivial tidy⟩⟩))))
  | .slice _ _ elem => .pure_bind (.behind (.behind (.last elem.remade fun _ =>
    ⟨_, rfl, fun _ _ ⟨like, tidy⟩ => ⟨⟨rfl, like.stop⟩, .node trivial tidy⟩⟩)))
  | .map _ _ key _ value => .pure_bind (.behind (.behind (.bind key.remade fun _ _ =>
    .behind (.last value.remade fun _ => ⟨_, rfl, fun _ _ ⟨like, tidy⟩ ⟨_, ofKey⟩ =>
      ⟨⟨rfl, like.stop⟩, .node trivial (ofKey.append tidy)⟩⟩))))
  | .chan dir _ elem => .pure_bind (.past (.last elem.remade fun _ => ⟨_, rfl,
    fun _ _ ⟨like, tidy⟩ => ⟨⟨by cases dir <;> rfl, like.stop⟩, .node trivial tidy⟩⟩))
  | .struct structPos fields => .pure_bind (.behind (.last fields.remade fun _ => ⟨_, rfl,
    fun _ _ ⟨like, tidy⟩ => ⟨⟨rfl, congrArg (·.getD structPos.stop) like.stop?⟩, .node trivial tidy⟩⟩))
  | .interface interfacePos elements => .quiet_bind Tidy.onType_quiet
    fun _ ⟨_, marks, isLeave⟩ => .behind (.last elements.remade fun elements' =>
      ⟨_, isLeave elements', fun _ _ ⟨like, tidy⟩ _ =>
        ⟨⟨rfl, congrArg (·.getD interfacePos.stop) (like.mergeMarked marks).stop?⟩,
          .node trivial (.mergeMarked marks tidy)⟩⟩)
  | .func funcPos sig => .pure_bind (.past (.last sig.remade fun _ => ⟨_, rfl,
    fun _ _ ⟨like, tidy⟩ => ⟨⟨by cases funcPos with | none => exact like.pos | some _ => rfl,
      like.stop⟩, .node trivial tidy⟩⟩))
  | .paren _ inner _ => .pure_bind (.behind (.before (.last inner.remade fun _ =>
    ⟨_, rfl, fun _ _ ⟨_, tidy⟩ => ⟨⟨rfl, rfl⟩, .node trivial tidy⟩⟩)))
  | .variadic _ elem => .pure_bind (.behind (.last elem.remade fun _ =>
    ⟨_, rfl, fun _ _ ⟨like, tidy⟩ => ⟨⟨rfl, like.stop⟩, .node trivial tidy⟩⟩))
  | .union terms => by
    have all := TypeExpr.remadeAll terms
    cases terms with
    | nil => exact fun _ _ h => h.1.elim
    | cons term terms =>
      exact .pure_bind (.cast (show (TypeExpr.union (term :: terms)).landmarks =
        TypeExpr.landmarksAll (term :: terms) from rfl) (.last all fun _ =>
          ⟨_, rfl, fun _ _ ⟨likes, tidy⟩ => ⟨TypeExpr.like_union likes, .node trivial tidy⟩⟩))
  | .tilde _ inner => .pure_bind (.behind (.last inner.remade fun _ =>
    ⟨_, rfl, fun _ _ ⟨like, tidy⟩ => ⟨⟨rfl, like.stop⟩, .node trivial tidy⟩⟩))

theorem TypeExpr.remadeOpt : ∀ o : Option TypeExpr, Remakes n O k (TypeExpr.landmarksOpt o)
    (TypeExpr.visitOpt (visitor opts k.comments) o) (fun _ => Option.Rel TypeExpr.Like o)
    TypeExpr.nodesOpt
  | none => .pure fun _ _ => ⟨.none, .nil⟩
  | some t => .last t.remade fun _ => ⟨_, rfl, fun _ _ ⟨like, tidy⟩ => ⟨.some like, tidy⟩⟩

theorem TypeExpr.remadeAll : ∀ ts : List TypeExpr, Remakes n O k (TypeExpr.landmarksAll ts)
    (TypeExpr.visitAll (visitor opts k.comments) ts) (fun _ => List.Forall₂ TypeExpr.Like ts)
    TypeExpr.nodesAll
  | [] => .pure fun _ _ => ⟨.nil, .nil⟩
  | t :: ts => .bind t.remade fun _ _ => .last (TypeExpr.remadeAll ts) fun _ =>
    ⟨_, rfl, fun _ _ ⟨likes, tidyAll⟩ ⟨like, tidy⟩ => ⟨.cons like likes, tidy.append tidyAll⟩⟩

theorem Field.remade : ∀ f : Field, Remakes n O k f.landmarks
    (f.visit (visitor opts k.comments)) (fun _ => f.Like) Field.nodes
  | ⟨_, _, type, _, _⟩ => .before (.past (.last type.remade fun _ =>
    ⟨_, rfl, fun _ _ ⟨like, tidy⟩ => ⟨.of_type like, .node trivial tidy⟩⟩))

theorem Field.remadeAll : ∀ fs : List Field, Remakes n O k (Field.landmarksAll fs)
    (Field.visitAll (visitor opts k.comments) fs) (fun _ => List.Forall₂ Field.Like fs) Field.nodesAll
  | [] => .pure fun _ _ => ⟨.nil, .nil⟩
  | f :: fs => .bind f.remade fun _ _ => .last (Field.remadeAll fs) fun _ =>
    ⟨_, rfl, fun _ _ ⟨likes, tidyAll⟩ ⟨like, tidy⟩ => ⟨.cons like likes, tidy.append tidyAll⟩⟩

theorem FieldList.remade : ∀ l : FieldList, Remakes n O k l.landmarks
    (l.visit (visitor opts k.comments)) (fun _ => l.Like) FieldList.nodes
  | ⟨some _, fields⟩ => .behind (.before (.last (Field.remadeAll fields) fun _ =>
    ⟨_, rfl, fun _ _ ⟨_, tidy⟩ => ⟨⟨rfl, nofun⟩, tidy⟩⟩))
  | ⟨none, fields⟩ => by
    have all := Field.remadeAll fields
    match fields, all with
    | [], _ => exact fun _ _ h => h.1.elim
    | _ :: _ :: _, _ => exact fun _ _ h => h.1.elim
    | [f], all =>
      refine .last (all.cast (List.append_nil _).symm) fun fields' => ⟨_, rfl, ?_⟩
      rintro t - ⟨likes, tidy⟩
      obtain ⟨f', _, like, none, rfl⟩ := List.forall₂_cons_left_iff.mp likes
      cases none
      exact ⟨⟨rfl, fun _ => ⟨f, f', rfl, rfl, like⟩⟩, tidy⟩

theorem FieldList.remadeOpt : ∀ o : Option FieldList, Remakes n O k (FieldList.landmarksOpt o)
    (FieldList.visitOpt (visitor opts k.comments) o) (fun _ => Option.Rel FieldList.Like o)
    FieldList.nodesOpt
  | none => .pure fun _ _ => ⟨.none, .nil⟩
  | some l => .last l.remade fun _ => ⟨_, rfl, fun _ _ ⟨like, tidy⟩ => ⟨.some like, tidy⟩⟩

theorem Signature.remade : ∀ s : Signature, Remakes n O k s.landmarks
    (s.visit (visitor opts k.comments)) (fun _ => s.Like) Signature.nodes
  | ⟨params, results⟩ => .quiet_bind (Tidy.onSig_quiet _)
    fun _ ⟨_, ofParams, ofResults, isLeave⟩ => .bind params.remade fun _ _ =>
      .last (FieldList.remadeOpt results) fun _ => ⟨_, congrFun isLeave _,
        fun _ _ ⟨likes, tidyResults⟩ ⟨like, tidy⟩ _ =>
          ⟨.of_fields (like.mergeMarked ofParams) (FieldList.Like.mergeMarkedOpt likes ofResults),
            .node trivial ((AllTidy.mergeMarked _ tidy).append (.mergeMarkedOpt _ tidyResults))⟩⟩

theorem Block.remade (role : BlockRole) : ∀ b : Block, Along n O (Clear O k) b.landmarks
    (b.visit (visitor opts k.comments) role) fun b' t =>
      (b'.lbrace = b.lbrace ∧ b'.rbrace = b.rbrace) ∧ b'.Tidy k t role ∧ AllTidy k t b'.nodes
  | ⟨_, stmts, _⟩ => Block.remade_of extra rising (Stmt.settleAll stmts)

theorem Stmt.remade : ∀ s : Stmt, Remakes n O k s.landmarks (s.visit (visitor opts k.comments))
    (Stmt.Like O k · s) Stmt.nodes
  | .decl d => Stmt.decl_remade d.remade
  | .empty _ => .pure_bind (.pure fun _ _ => ⟨.of rfl rfl rfl rfl, .node trivial .nil⟩)
  | .labeled _ _ stmt => .pure_bind (.behind (.behind (.last stmt.remade fun _ =>
    ⟨_, rfl, fun _ _ ⟨like, tidy⟩ => ⟨⟨.inl rfl, like.stop, nofun, nofun⟩, .node trivial tidy⟩⟩)))
  | .expr e => .pure_bind (.last e.remade fun _ => ⟨_, rfl, fun _ _ ⟨like, tidy⟩ =>
    ⟨.of like.pos like.stop rfl rfl, .node trivial tidy⟩⟩)
  | .send chan _ value => .pure_bind (.bind chan.remade fun _ _ => .behind (.last value.remade
    fun _ => ⟨_, rfl, fun _ _ ⟨ofValue, tidyValue⟩ ⟨ofChan, tidyChan⟩ =>
      ⟨.of ofChan.pos ofValue.stop rfl rfl, .node trivial (tidyChan.append tidyValue)⟩⟩))
  | .incDec operand _ _ => .pure_bind (.before (.last operand.remade fun _ => ⟨_, rfl,
    fun _ _ ⟨like, tidy⟩ => ⟨.of like.pos rfl rfl rfl, .node trivial tidy⟩⟩))
  | .assign lhs _ _ rhs => .pure_bind (.bind (Expr.remadeAll_of (Expr.settleAll lhs)) fun _ _ =>
    .behind (.last (Expr.remadeAll_of (Expr.settleAll rhs)) fun _ => ⟨_, rfl,
      fun _ _ ⟨ofRhs, tidyRhs⟩ ⟨ofLhs, tidyLhs⟩ =>
        ⟨Stmt.like_assign ofLhs ofRhs, .node trivial (tidyLhs.append tidyRhs)⟩⟩))
  | .go _ call => .pure_bind (.behind (.last call.remade fun _ => ⟨_, rfl,
    fun _ _ ⟨like, tidy⟩ => ⟨.of rfl like.stop rfl rfl, .node trivial tidy⟩⟩))
  | .defer _ call => .pure_bind (.behind (.last call.remade fun _ => ⟨_, rfl,
    fun _ _ ⟨like, tidy⟩ => ⟨.of rfl like.stop rfl rfl, .node trivial tidy⟩⟩))
  | .returns _ results => .pure_bind (.behind (.last (Expr.remadeAll_of (Expr.settleAll results)) fun _ => ⟨_, rfl,
    fun _ _ ⟨likes, tidy⟩ =>
      ⟨.of rfl (Expr.lastStop_of_like likes) rfl rfl, .node trivial tidy⟩⟩))
  | .branch _ _ _ => .pure_bind (.pure fun _ _ => ⟨.of rfl rfl rfl rfl, .node trivial .nil⟩)
  | .block b => .pure_bind (.last (b.remade .inner) fun _ => ⟨_, rfl,
    fun _ _ ⟨⟨opens, close⟩, law, tidy⟩ =>
      ⟨.of (congrArg Span.start opens) (congrArg Span.stop close) rfl rfl, .node law tidy⟩⟩)
  | .ifElse _ init cond body orElse => .pure_bind (.behind (.assoc (.assoc (
    .bind (Stmt.remadeOpt init) fun _ _ => .bind cond.remade fun _ _ =>
      .bind (body.remade .inner) fun _ _ => .last (Stmt.remadeOpt orElse) fun _ => ⟨_, rfl,
        fun _ _ ⟨ofElse, tidyElse⟩ ⟨⟨_, close⟩, law, tidyBody⟩ ⟨ofCond, tidyCond⟩
            ⟨ofInit, tidyInit⟩ =>
          ⟨Stmt.like_ifElse ofInit ofCond close ofElse,
            .node law (((tidyInit.append tidyCond).append tidyBody).append tidyElse)⟩⟩))))
  | .caseClause _ values _ body =>
    Stmt.caseClause_remade extra (Expr.remadeAll_of (Expr.settleAll values)) (Stmt.settleAll body)
  | .switch _ init tag body => .pure_bind (.behind (.assoc (
    .bind (Stmt.remadeOpt init) fun _ _ => .bind (Expr.remadeOpt tag) fun _ _ =>
      .last (body.remade .inner) fun _ => ⟨_, rfl,
        fun _ _ ⟨⟨_, close⟩, law, tidyBody⟩ ⟨_, tidyTag⟩ ⟨_, tidyInit⟩ =>
          ⟨.of rfl (congrArg Span.stop close) rfl rfl,
            .node law ((tidyInit.append tidyTag).append tidyBody)⟩⟩)))
  | .typeSwitch _ init guarded body => .pure_bind (.behind (.assoc (
    .bind (Stmt.remadeOpt init) fun _ _ => .bind guarded.remade fun _ _ =>
      .last (body.remade .inner) fun _ => ⟨_, rfl,
        fun _ _ ⟨⟨_, close⟩, law, tidyBody⟩ ⟨_, tidyGuarded⟩ ⟨_, tidyInit⟩ =>
          ⟨.of rfl (congrArg Span.stop close) rfl rfl,
            .node law ((tidyInit.append tidyGuarded).append tidyBody)⟩⟩)))
  | .commClause _ comm _ body =>
    Stmt.commClause_remade extra (Stmt.remadeOpt comm) (Stmt.settleAll body)
  | .select _ body => .pure_bind (.behind (.last (body.remade .inner) fun _ => ⟨_, rfl,
    fun _ _ ⟨⟨_, close⟩, law, tidy⟩ =>
      ⟨.of rfl (congrArg Span.stop close) rfl rfl, .node law tidy⟩⟩))
  | .forLoop _ init cond post body => .pure_bind (.behind (.assoc (.assoc (
    .bind (Stmt.remadeOpt init) fun _ _ => .bind (Expr.remadeOpt cond) fun _ _ =>
      .bind (Stmt.remadeOpt post) fun _ _ => .last (body.remade .inner) fun _ => ⟨_, rfl,
        fun _ _ ⟨⟨_, close⟩, law, tidyBody⟩ ⟨_, tidyPost⟩ ⟨_, tidyCond⟩ ⟨_, tidyInit⟩ =>
          ⟨.of rfl (congrArg Span.stop close) rfl rfl,
            .node law (((tidyInit.append tidyCond).append tidyPost).append tidyBody)⟩⟩))))
  | .range _ key value _ _ operand body => .pure_bind (.behind (.assoc (.assoc (
    .bind (Expr.remadeOpt key) fun _ _ => .bind (Expr.remadeOpt value) fun _ _ =>
      .past (.behind (.bind operand.remade fun _ _ => .last (body.remade .inner) fun _ => ⟨_, rfl,
        fun _ _ ⟨⟨_, close⟩, law, tidyBody⟩ ⟨_, tidyOperand⟩ ⟨_, tidyValue⟩ ⟨_, tidyKey⟩ =>
          ⟨.of rfl (congrArg Span.stop close) rfl rfl,
            .node law (((tidyKey.append tidyValue).append tidyOperand).append tidyBody)⟩⟩))))))

theorem Stmt.remadeOpt : ∀ o : Option Stmt, Remakes n O k (Stmt.landmarksOpt o)
    (Stmt.visitOpt (visitor opts k.comments) o) (fun t => Option.Rel (Stmt.Like O k t) o) Stmt.nodesOpt
  | none => .pure fun _ _ => ⟨.none, .nil⟩
  | some s => .last s.remade fun _ => ⟨_, rfl, fun _ _ ⟨like, tidy⟩ => ⟨.some like, tidy⟩⟩

theorem Stmt.settleAll : ∀ (ss : List Stmt) (lo hi : Nat),
    InOrder (Clear O k) hi lo (Stmt.landmarksAll ss) →
      Settles n O (Span.AnyInside (ss.map Stmt.extentSpan))
        (Stmt.visitAll (visitor opts k.comments) ss)
        fun ss' t => List.Forall₂ (Stmt.Like O k t) ss ss' ∧ AllTidy k t (Stmt.nodesAll ss')
  | [], _, _, _ => .pure fun _ _ => ⟨.nil, .nil⟩
  | s :: ss, lo, hi, inOrder => by
    obtain ⟨row, -⟩ := Stmt.inRow inOrder
    have first := s.remade _ _ (Stmt.extent inOrder.left).2.2
    have behind := Stmt.settleAll ss lo hi inOrder.right
    refine (first.bind (fun _ => row.apart) fun _ _ => behind.last fun _ => ⟨_, rfl, ?_⟩).widen ?_
    · exact fun _ _ ⟨likes, tidyAll⟩ ⟨like, tidy⟩ => ⟨.cons like likes, tidy.append tidyAll⟩
    · exact fun _ => Span.anyInside_cons (s := s.extentSpan).mpr

theorem GenDecl.remade : ∀ d : GenDecl, Remakes n O k d.landmarks
    (d.visit (visitor opts k.comments)) (d.Like k.comments) GenDecl.nodes
  | ⟨_, _, _, _, specs, _⟩ => GenDecl.remade_of (Spec.settleAll specs)

theorem Spec.remade : ∀ s : Spec, Remakes n O k s.landmarks (s.visit (visitor opts k.comments))
    (fun _ => s.Like) Spec.nodes
  | .importSpec _ => .pure fun _ _ => ⟨⟨rfl, rfl, nofun⟩, .nil⟩
  | .valueSpec _ _ type _ values _ =>
    Spec.value_remade (TypeExpr.remadeOpt type) (Expr.remadeAll_of (Expr.settleAll values))
  | .typeSpec _ _ typeParams _ type _ => .behind (.assoc (
    .bind (FieldList.remadeOpt typeParams) fun _ _ => .past (.last type.remade fun _ => ⟨_, rfl,
      fun _ _ ⟨like, tidy⟩ ⟨_, tidyParams⟩ =>
        ⟨⟨rfl, like.stop, nofun⟩, tidyParams.append tidy⟩⟩)))

theorem Spec.settleAll : ∀ (ss : List Spec) (lo hi : Nat),
    InOrder (Clear O k) hi lo (Spec.landmarksAll ss) →
      Settles n O (Span.AnyInside (ss.map Spec.extent))
        (Spec.visitAll (visitor opts k.comments) ss)
        fun ss' t => List.Forall₂ Spec.Like ss ss' ∧ AllTidy k t (Spec.nodesAll ss')
  | [], _, _, _ => .pure fun _ _ => ⟨.nil, .nil⟩
  | s :: ss, lo, hi, inOrder => by
    have row := Spec.inRow inOrder
    have first := s.remade _ _ (Spec.extent_inOrder inOrder.left).2.2
    have behind := Spec.settleAll ss lo hi inOrder.right
    refine (first.bind (fun _ => row.apart) fun _ _ => behind.last fun _ => ⟨_, rfl, ?_⟩).widen ?_
    · exact fun _ _ ⟨likes, tidyAll⟩ ⟨like, tidy⟩ => ⟨.cons like likes, tidy.append tidyAll⟩
    · exact fun _ => Span.anyInside_cons (s := s.extent).mpr

end

theorem Block.remadeBody (o : Option Block) : Along n O (Clear O k)
    (o.toList.flatMap Block.landmarks) (Block.visitBody (visitor opts k.comments) o)
    fun o' t => (∀ body ∈ o', body.Tidy k t .body) ∧ AllTidy k t ((o'.map (·.nodes)).getD []) := by
  cases o with
  | none => exact .pure fun _ _ => ⟨nofun, .nil⟩
  | some body =>
    have whole := (body.remade extra rising (n := n) (O := O) .body).cast
      (List.flatMap_singleton Block.landmarks body)
    exact .last whole fun _ => ⟨_, rfl, fun _ _ ⟨_, law, tidy⟩ =>
      ⟨fun _ isBody => Option.some.inj isBody ▸ law, tidy⟩⟩

theorem FuncDecl.remade (f : FuncDecl) : Remakes n O k f.landmarks
    (f.visit (visitor opts k.comments)) (fun _ _ => True) FuncDecl.nodes :=
  .quiet_bind (Tidy.onFunc_quiet f) fun _ ⟨_, ofReceiver, ofTypeParams, isLeave⟩ =>
    .behind (.bind (FieldList.remadeOpt extra rising f.receiver) fun _ _ => .behind (.assoc (
      .bind (FieldList.remadeOpt extra rising f.typeParams) fun _ _ =>
        .bind (f.sig.remade extra rising) fun _ _ => .last (Block.remadeBody extra rising f.body)
          fun _ => ⟨_, congrFun isLeave _,
            fun _ _ ⟨law, tidyBody⟩ ⟨_, tidySig⟩ ⟨_, tidyTypeParams⟩ ⟨_, tidyReceiver⟩ _ =>
              ⟨trivial, .node law ((((AllTidy.mergeMarkedOpt ofReceiver tidyReceiver).append
                (.mergeMarkedOpt ofTypeParams tidyTypeParams)).append tidySig).append tidyBody)⟩⟩)))

end Visiting

end GoLayout
