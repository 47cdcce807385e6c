import GoLayout.Proofs.Tree.Everywhere
import GoLayout.Proofs.Tree.Words
import GoLayout.Tree.Traverse

/-!
What a traversal does to a tree, told from what its visitor does at each node. A visitor is sound
if it leaves the tokens of every node where they may be, and where asked for, its words; the visit
of a tree by it then does so too, in whatever monad the visitor works.
-/

namespace GoLayout

/-- Statements about the results of computations, closed under sequencing. -/
structure Judgement (m : Type → Type) [Monad m] where
  Holds : {α : Type} → m α → (α → Prop) → Prop
  pure : ∀ {α : Type} {a : α} {Q : α → Prop}, Q a → Holds (pure a) Q
  bind : ∀ {α β : Type} {x : m α} {f : α → m β} {Q : α → Prop} {R : β → Prop},
    Holds x Q → (∀ a, Q a → Holds (f a) R) → Holds (x >>= f) R

/-- What becomes of a node: it is as `ok` says, and where `faithful`, it looks as before. -/
def Kept {α β : Type} (ok : α → Prop) (view : α → β) (faithful : Prop) (before after : α) : Prop :=
  ok after ∧ (faithful → view after = view before)

variable {m : Type → Type} [Monad m]

/-- At every node that is as `ok` says, something is done that keeps it so. -/
def Visit.Sound {α β : Type} (J : Judgement m) (ok : α → Prop) (view : α → β) (faithful : Prop)
    (visit : Visit m α) : Prop :=
  ∀ a, ok a → J.Holds (visit a) fun leave =>
    ∀ x, Kept ok view faithful a x → J.Holds (leave x) (Kept ok view faithful a)

theorem Visit.sound_skip {α β : Type} {J : Judgement m} {ok : α → Prop} {view : α → β}
    {faithful : Prop} : Visit.Sound J ok view faithful (Visit.skip : Visit m α) :=
  fun _ _ => J.pure fun _ kept => J.pure kept

/-- A visitor that keeps tokens where `P` holds, and where `faithful`, the words. -/
structure Visitor.Sound (J : Judgement m) (P : Span → Prop) (faithful : Prop) (v : Visitor m) :
    Prop where
  expr : Visit.Sound J (Expr.Everywhere P) Expr.words faithful v.expr
  type : Visit.Sound J (TypeExpr.Everywhere P) TypeExpr.words faithful v.type
  sig : Visit.Sound J (Signature.Everywhere P) Signature.words faithful v.sig
  block : ∀ role, Visit.Sound J (Block.Everywhere P) Block.words faithful (v.block role)
  stmt : Visit.Sound J (Stmt.Everywhere P) Stmt.words faithful v.stmt
  decl : Visit.Sound J (GenDecl.Everywhere P) GenDecl.words faithful v.decl
  func : Visit.Sound J (FuncDecl.Everywhere P) FuncDecl.words faithful v.func

theorem Visitor.sound_idle {J : Judgement m} {P : Span → Prop} {faithful : Prop} :
    (Visitor.idle : Visitor m).Sound J P faithful :=
  ⟨Visit.sound_skip, Visit.sound_skip, Visit.sound_skip, fun _ => Visit.sound_skip,
    Visit.sound_skip, Visit.sound_skip, Visit.sound_skip⟩

section Visit

set_option linter.unusedSectionVars false

variable {J : Judgement m} {P : Span → Prop} {faithful : Prop} {v : Visitor m}
  (sound : v.Sound J P faithful)

include sound

mutual

theorem Expr.visit_kept : ∀ e : Expr, e.Everywhere P →
    J.Holds (e.visit v) (Kept (Expr.Everywhere P) Expr.words faithful e)
  | .ident _, h => by
    refine J.bind (sound.expr _ h) fun leave done => ?_
    exact done _ ⟨h, fun _ => rfl⟩
  | .literal _, h => by
    refine J.bind (sound.expr _ h) fun leave done => ?_
    exact done _ ⟨h, fun _ => rfl⟩
  | .func _ sig body, h => by
    refine J.bind (sound.expr _ h) fun leave done => ?_
    refine J.bind (sig.visit_kept h.2.1) fun sig' keptSig => ?_
    refine J.bind (body.visit_kept .body h.2.2) fun body' keptBody => ?_
    refine done _ ⟨⟨h.1, keptSig.1, keptBody.1⟩, fun f => ?_⟩
    simp only [Expr.words, keptSig.2 f, keptBody.2 f]
  | .composite type _ elements _, h => by
    refine J.bind (sound.expr _ h) fun leave done => ?_
    refine J.bind (TypeExpr.visitOpt_kept type h.1) fun type' keptType => ?_
    refine J.bind (Expr.visitAll_kept elements h.2.2.1) fun elements' keptElements => ?_
    refine done _ ⟨⟨keptType.1, h.2.1, keptElements.1, h.2.2.2⟩, fun f => ?_⟩
    simp only [Expr.words, keptType.2 f, keptElements.2 f]
  | .paren _ inner _, h => by
    refine J.bind (sound.expr _ h) fun leave done => ?_
    refine J.bind (inner.visit_kept h.2.1) fun inner' kept => ?_
    exact done _ ⟨⟨h.1, kept.1, h.2.2⟩, kept.2⟩
  | .selector operand _ _, h => by
    refine J.bind (sound.expr _ h) fun leave done => ?_
    refine J.bind (operand.visit_kept h.1) fun operand' kept => ?_
    refine done _ ⟨⟨kept.1, h.2⟩, fun f => ?_⟩
    simp only [Expr.words, kept.2 f]
  | .index operand _ indices _, h => by
    refine J.bind (sound.expr _ h) fun leave done => ?_
    refine J.bind (operand.visit_kept h.1) fun operand' keptOperand => ?_
    refine J.bind (Expr.visitAll_kept indices h.2.2.1) fun indices' keptIndices => ?_
    refine done _ ⟨⟨keptOperand.1, h.2.1, keptIndices.1, h.2.2.2⟩, fun f => ?_⟩
    simp only [Expr.words, keptOperand.2 f, keptIndices.2 f]
  | .slice operand _ lo hi max _ _, h => by
    refine J.bind (sound.expr _ h) fun leave done => ?_
    refine J.bind (operand.visit_kept h.1) fun operand' keptOperand => ?_
    refine J.bind (Expr.visitOpt_kept lo h.2.2.1) fun lo' keptLo => ?_
    refine J.bind (Expr.visitOpt_kept hi h.2.2.2.1) fun hi' keptHi => ?_
    refine J.bind (Expr.visitOpt_kept max h.2.2.2.2.1) fun max' keptMax => ?_
    refine done _ ⟨⟨keptOperand.1, h.2.1, keptLo.1, keptHi.1, keptMax.1, h.2.2.2.2.2⟩,
      fun f => ?_⟩
    simp only [Expr.words, keptOperand.2 f, keptLo.2 f, keptHi.2 f, keptMax.2 f]
  | .assertion operand _ _ type _, h => by
    refine J.bind (sound.expr _ h) fun leave done => ?_
    refine J.bind (operand.visit_kept h.1) fun operand' keptOperand => ?_
    refine J.bind (TypeExpr.visitOpt_kept type h.2.2.2.1) fun type' keptType => ?_
    refine done _ ⟨⟨keptOperand.1, h.2.1, h.2.2.1, keptType.1, h.2.2.2.2⟩, fun f => ?_⟩
    simp only [Expr.words, keptOperand.2 f, keptType.2 f]
  | .call fn _ args _ _, h => by
    refine J.bind (sound.expr _ h) fun leave done => ?_
    refine J.bind (fn.visit_kept h.1) fun fn' keptFn => ?_
    refine J.bind (Expr.visitAll_kept args h.2.2.1) fun args' keptArgs => ?_
    refine done _ ⟨⟨keptFn.1, h.2.1, keptArgs.1, h.2.2.2⟩, fun f => ?_⟩
    simp only [Expr.words, keptFn.2 f, keptArgs.2 f]
  | .unary _ _ operand, h => by
    refine J.bind (sound.expr _ h) fun leave done => ?_
    refine J.bind (operand.visit_kept h.2) fun operand' kept => ?_
    exact done _ ⟨⟨h.1, kept.1⟩, kept.2⟩
  | .binary left _ _ right, h => by
    refine J.bind (sound.expr _ h) fun leave done => ?_
    refine J.bind (left.visit_kept h.1) fun left' keptLeft => ?_
    refine J.bind (right.visit_kept h.2.2) fun right' keptRight => ?_
    refine done _ ⟨⟨keptLeft.1, h.2.1, keptRight.1⟩, fun f => ?_⟩
    simp only [Expr.words, keptLeft.2 f, keptRight.2 f]
  | .keyValue key _ value, h => by
    refine J.bind (sound.expr _ h) fun leave done => ?_
    refine J.bind (key.visit_kept h.1) fun key' keptKey => ?_
    refine J.bind (value.visit_kept h.2.2) fun value' keptValue => ?_
    refine done _ ⟨⟨keptKey.1, h.2.1, keptValue.1⟩, fun f => ?_⟩
    simp only [Expr.words, keptKey.2 f, keptValue.2 f]
  | .type t, h => by
    refine J.bind (sound.expr _ h) fun leave done => ?_
    refine J.bind (t.visit_kept h) fun t' kept => ?_
    exact done _ kept

theorem Expr.visitOpt_kept : ∀ o : Option Expr, Expr.EverywhereOpt P o →
    J.Holds (Expr.visitOpt v o) (Kept (Expr.EverywhereOpt P) Expr.wordsOpt faithful o)
  | none, h => J.pure ⟨h, fun _ => rfl⟩
  | some e, h => J.bind (e.visit_kept h) fun _ kept => J.pure kept

theorem Expr.visitAll_kept : ∀ es : List Expr, Expr.EverywhereAll P es →
    J.Holds (Expr.visitAll v es) (Kept (Expr.EverywhereAll P) Expr.wordsAll faithful es)
  | [], h => J.pure ⟨h, fun _ => rfl⟩
  | e :: es, h => by
    refine J.bind (e.visit_kept h.1) fun e' kept => ?_
    refine J.bind (Expr.visitAll_kept es h.2) fun es' keptAll => ?_
    refine J.pure ⟨⟨kept.1, keptAll.1⟩, fun f => ?_⟩
    simp only [Expr.wordsAll, kept.2 f, keptAll.2 f]

theorem TypeExpr.visit_kept : ∀ t : TypeExpr, t.Everywhere P →
    J.Holds (t.visit v) (Kept (TypeExpr.Everywhere P) TypeExpr.words faithful t)
  | .named _ _, h => by
    refine J.bind (sound.type _ h) fun leave done => ?_
    exact done _ ⟨h, fun _ => rfl⟩
  | .generic _ _ _ args _, h => by
    refine J.bind (sound.type _ h) fun leave done => ?_
    refine J.bind (TypeExpr.visitAll_kept args h.2.2.2.1) fun args' kept => ?_
    refine done _ ⟨⟨h.1, h.2.1, h.2.2.1, kept.1, h.2.2.2.2⟩, fun f => ?_⟩
    simp only [TypeExpr.words, kept.2 f]
  | .pointer _ elem, h => by
    refine J.bind (sound.type _ h) fun leave done => ?_
    refine J.bind (elem.visit_kept h.2) fun elem' kept => ?_
    exact done _ ⟨⟨h.1, kept.1⟩, kept.2⟩
  | .array _ len _ elem, h => by
    refine J.bind (sound.type _ h) fun leave done => ?_
    refine J.bind (len.visit_kept h.2.1) fun len' keptLen => ?_
    refine J.bind (elem.visit_kept h.2.2.2) fun elem' keptElem => ?_
    refine done _ ⟨⟨h.1, keptLen.1, h.2.2.1, keptElem.1⟩, fun f => ?_⟩
    simp only [TypeExpr.words, keptLen.2 f, keptElem.2 f]
  | .countedArray _ _ _ elem, h => by
    refine J.bind (sound.type _ h) fun leave done => ?_
    refine J.bind (elem.visit_kept h.2.2.2) fun elem' kept => ?_
    exact done _ ⟨⟨h.1, h.2.1, h.2.2.1, kept.1⟩, kept.2⟩
  | .slice _ _ elem, h => by
    refine J.bind (sound.type _ h) fun leave done => ?_
    refine J.bind (elem.visit_kept h.2.2) fun elem' kept => ?_
    exact done _ ⟨⟨h.1, h.2.1, kept.1⟩, kept.2⟩
  | .map _ _ key _ value, h => by
    refine J.bind (sound.type _ h) fun leave done => ?_
    refine J.bind (key.visit_kept h.2.2.1) fun key' keptKey => ?_
    refine J.bind (value.visit_kept h.2.2.2.2) fun value' keptValue => ?_
    refine done _ ⟨⟨h.1, h.2.1, keptKey.1, h.2.2.2.1, keptValue.1⟩, fun f => ?_⟩
    simp only [TypeExpr.words, keptKey.2 f, keptValue.2 f]
  | .chan _ _ elem, h => by
    refine J.bind (sound.type _ h) fun leave done => ?_
    refine J.bind (elem.visit_kept h.2.2) fun elem' kept => ?_
    exact done _ ⟨⟨h.1, h.2.1, kept.1⟩, kept.2⟩
  | .struct _ fields, h => by
    refine J.bind (sound.type _ h) fun leave done => ?_
    refine J.bind (fields.visit_kept h.2) fun fields' kept => ?_
    exact done _ ⟨⟨h.1, kept.1⟩, kept.2⟩
  | .interface _ elements, h => by
    refine J.bind (sound.type _ h) fun leave done => ?_
    refine J.bind (elements.visit_kept h.2) fun elements' kept => ?_
    exact done _ ⟨⟨h.1, kept.1⟩, kept.2⟩
  | .func _ sig, h => by
    refine J.bind (sound.type _ h) fun leave done => ?_
    refine J.bind (sig.visit_kept h.2) fun sig' kept => ?_
    exact done _ ⟨⟨h.1, kept.1⟩, kept.2⟩
  | .paren _ inner _, h => by
    refine J.bind (sound.type _ h) fun leave done => ?_
    refine J.bind (inner.visit_kept h.2.1) fun inner' kept => ?_
    exact done _ ⟨⟨h.1, kept.1, h.2.2⟩, kept.2⟩
  | .variadic _ elem, h => by
    refine J.bind (sound.type _ h) fun leave done => ?_
    refine J.bind (elem.visit_kept h.2) fun elem' kept => ?_
    exact done _ ⟨⟨h.1, kept.1⟩, kept.2⟩
  | .union terms, h => by
    refine J.bind (sound.type _ h) fun leave done => ?_
    refine J.bind (TypeExpr.visitAll_kept terms h) fun terms' kept => ?_
    exact done _ kept
  | .tilde _ inner, h => by
    refine J.bind (sound.type _ h) fun leave done => ?_
    refine J.bind (inner.visit_kept h.2) fun inner' kept => ?_
    exact done _ ⟨⟨h.1, kept.1⟩, kept.2⟩

theorem TypeExpr.visitOpt_kept : ∀ o : Option TypeExpr, TypeExpr.EverywhereOpt P o →
    J.Holds (TypeExpr.visitOpt v o) (Kept (TypeExpr.EverywhereOpt P) TypeExpr.wordsOpt faithful o)
  | none, h => J.pure ⟨h, fun _ => rfl⟩
  | some t, h => J.bind (t.visit_kept h) fun _ kept => J.pure kept

theorem TypeExpr.visitAll_kept : ∀ ts : List TypeExpr, TypeExpr.EverywhereAll P ts →
    J.Holds (TypeExpr.visitAll v ts) (Kept (TypeExpr.EverywhereAll P) TypeExpr.wordsAll faithful ts)
  | [], h => J.pure ⟨h, fun _ => rfl⟩
  | t :: ts, h => by
    refine J.bind (t.visit_kept h.1) fun t' kept => ?_
    refine J.bind (TypeExpr.visitAll_kept ts h.2) fun ts' keptAll => ?_
    refine J.pure ⟨⟨kept.1, keptAll.1⟩, fun f => ?_⟩
    simp only [TypeExpr.wordsAll, kept.2 f, keptAll.2 f]

theorem Field.visit_kept : ∀ f : Field, f.Everywhere P →
    J.Holds (f.visit v) (Kept (Field.Everywhere P) Field.words faithful f)
  | ⟨_, _, type, _, _⟩, h => by
    refine J.bind (type.visit_kept h.2.1) fun type' kept => ?_
    refine J.pure ⟨⟨h.1, kept.1, h.2.2⟩, fun f => ?_⟩
    simp only [Field.words, kept.2 f]

theorem Field.visitAll_kept : ∀ fs : List Field, Field.EverywhereAll P fs →
    J.Holds (Field.visitAll v fs) (Kept (Field.EverywhereAll P) Field.wordsAll faithful fs)
  | [], h => J.pure ⟨h, fun _ => rfl⟩
  | f :: fs, h => by
    refine J.bind (f.visit_kept h.1) fun f' kept => ?_
    refine J.bind (Field.visitAll_kept fs h.2) fun fs' keptAll => ?_
    refine J.pure ⟨⟨kept.1, keptAll.1⟩, fun f => ?_⟩
    simp only [Field.wordsAll, kept.2 f, keptAll.2 f]

theorem FieldList.visit_kept : ∀ l : FieldList, l.Everywhere P →
    J.Holds (l.visit v) (Kept (FieldList.Everywhere P) FieldList.words faithful l)
  | ⟨_, fields⟩, h =>
    J.bind (Field.visitAll_kept fields h.2) fun _ kept => J.pure ⟨⟨h.1, kept.1⟩, kept.2⟩

theorem FieldList.visitOpt_kept : ∀ o : Option FieldList, FieldList.EverywhereOpt P o →
    J.Holds (FieldList.visitOpt v o)
      (Kept (FieldList.EverywhereOpt P) FieldList.wordsOpt faithful o)
  | none, h => J.pure ⟨h, fun _ => rfl⟩
  | some l, h => J.bind (l.visit_kept h) fun _ kept => J.pure kept

theorem Signature.visit_kept : ∀ s : Signature, s.Everywhere P →
    J.Holds (s.visit v) (Kept (Signature.Everywhere P) Signature.words faithful s)
  | ⟨params, results⟩, h => by
    refine J.bind (sound.sig _ h) fun leave done => ?_
    refine J.bind (params.visit_kept h.1) fun params' keptParams => ?_
    refine J.bind (FieldList.visitOpt_kept results h.2) fun results' keptResults => ?_
    refine done _ ⟨⟨keptParams.1, keptResults.1⟩, fun f => ?_⟩
    simp only [Signature.words, keptParams.2 f, keptResults.2 f]

theorem Block.visit_kept (role : BlockRole) : ∀ b : Block, b.Everywhere P →
    J.Holds (b.visit v role) (Kept (Block.Everywhere P) Block.words faithful b)
  | ⟨_, stmts, _⟩, h => by
    refine J.bind (sound.block role _ h) fun leave done => ?_
    refine J.bind (Stmt.visitAll_kept stmts h.2.1) fun stmts' kept => ?_
    exact done _ ⟨⟨h.1, kept.1, h.2.2⟩, kept.2⟩

theorem Stmt.visit_kept : ∀ s : Stmt, s.Everywhere P →
    J.Holds (s.visit v) (Kept (Stmt.Everywhere P) Stmt.words faithful s)
  | .decl d, h => by
    refine J.bind (sound.stmt _ h) fun leave done => ?_
    refine J.bind (d.visit_kept h) fun d' kept => ?_
    exact done _ kept
  | .empty _, h => by
    refine J.bind (sound.stmt _ h) fun leave done => ?_
    exact done _ ⟨h, fun _ => rfl⟩
  | .labeled _ _ stmt, h => by
    refine J.bind (sound.stmt _ h) fun leave done => ?_
    refine J.bind (stmt.visit_kept h.2.2) fun stmt' kept => ?_
    refine done _ ⟨⟨h.1, h.2.1, kept.1⟩, fun f => ?_⟩
    simp only [Stmt.words, kept.2 f]
  | .expr e, h => by
    refine J.bind (sound.stmt _ h) fun leave done => ?_
    refine J.bind (e.visit_kept h) fun e' kept => ?_
    exact done _ kept
  | .send chan _ value, h => by
    refine J.bind (sound.stmt _ h) fun leave done => ?_
    refine J.bind (chan.visit_kept h.1) fun chan' keptChan => ?_
    refine J.bind (value.visit_kept h.2.2) fun value' keptValue => ?_
    refine done _ ⟨⟨keptChan.1, h.2.1, keptValue.1⟩, fun f => ?_⟩
    simp only [Stmt.words, keptChan.2 f, keptValue.2 f]
  | .incDec operand _ _, h => by
    refine J.bind (sound.stmt _ h) fun leave done => ?_
    refine J.bind (operand.visit_kept h.1) fun operand' kept => ?_
    exact done _ ⟨⟨kept.1, h.2⟩, kept.2⟩
  | .assign lhs _ _ rhs, h => by
    refine J.bind (sound.stmt _ h) fun leave done => ?_
    refine J.bind (Expr.visitAll_kept lhs h.1) fun lhs' keptLhs => ?_
    refine J.bind (Expr.visitAll_kept rhs h.2.2) fun rhs' keptRhs => ?_
    refine done _ ⟨⟨keptLhs.1, h.2.1, keptRhs.1⟩, fun f => ?_⟩
    simp only [Stmt.words, keptLhs.2 f, keptRhs.2 f]
  | .go _ call, h => by
    refine J.bind (sound.stmt _ h) fun leave done => ?_
    refine J.bind (call.visit_kept h.2) fun call' kept => ?_
    exact done _ ⟨⟨h.1, kept.1⟩, kept.2⟩
  | .defer _ call, h => by
    refine J.bind (sound.stmt _ h) fun leave done => ?_
    refine J.bind (call.visit_kept h.2) fun call' kept => ?_
    exact done _ ⟨⟨h.1, kept.1⟩, kept.2⟩
  | .returns _ results, h => by
    refine J.bind (sound.stmt _ h) fun leave done => ?_
    refine J.bind (Expr.visitAll_kept results h.2) fun results' kept => ?_
    exact done _ ⟨⟨h.1, kept.1⟩, kept.2⟩
  | .branch _ _ _, h => by
    refine J.bind (sound.stmt _ h) fun leave done => ?_
    exact done _ ⟨h, fun _ => rfl⟩
  | .block b, h => by
    refine J.bind (sound.stmt _ h) fun leave done => ?_
    refine J.bind (b.visit_kept .inner h) fun b' kept => ?_
    exact done _ kept
  | .ifElse _ init cond body orElse, h => by
    refine J.bind (sound.stmt _ h) fun leave done => ?_
    refine J.bind (Stmt.visitOpt_kept init h.2.1) fun init' keptInit => ?_
    refine J.bind (cond.visit_kept h.2.2.1) fun cond' keptCond => ?_
    refine J.bind (body.visit_kept .inner h.2.2.2.1) fun body' keptBody => ?_
    refine J.bind (Stmt.visitOpt_kept orElse h.2.2.2.2) fun orElse' keptElse => ?_
    refine done _ ⟨⟨h.1, keptInit.1, keptCond.1, keptBody.1, keptElse.1⟩, fun f => ?_⟩
    simp only [Stmt.words, keptInit.2 f, keptCond.2 f, keptBody.2 f, keptElse.2 f]
  | .caseClause _ values _ body, h => by
    refine J.bind (sound.stmt _ h) fun leave done => ?_
    refine J.bind (Expr.visitAll_kept values h.2.1) fun values' keptValues => ?_
    refine J.bind (Stmt.visitAll_kept body h.2.2.2) fun body' keptBody => ?_
    refine done _ ⟨⟨h.1, keptValues.1, h.2.2.1, keptBody.1⟩, fun f => ?_⟩
    simp only [Stmt.words, keptValues.2 f, keptBody.2 f]
  | .switch _ init tag body, h => by
    refine J.bind (sound.stmt _ h) fun leave done => ?_
    refine J.bind (Stmt.visitOpt_kept init h.2.1) fun init' keptInit => ?_
    refine J.bind (Expr.visitOpt_kept tag h.2.2.1) fun tag' keptTag => ?_
    refine J.bind (body.visit_kept .inner h.2.2.2) fun body' keptBody => ?_
    refine done _ ⟨⟨h.1, keptInit.1, keptTag.1, keptBody.1⟩, fun f => ?_⟩
    simp only [Stmt.words, keptInit.2 f, keptTag.2 f, keptBody.2 f]
  | .typeSwitch _ init guarded body, h => by
    refine J.bind (sound.stmt _ h) fun leave done => ?_
    refine J.bind (Stmt.visitOpt_kept init h.2.1) fun init' keptInit => ?_
    refine J.bind (guarded.visit_kept h.2.2.1) fun guarded' keptGuard => ?_
    refine J.bind (body.visit_kept .inner h.2.2.2) fun body' keptBody => ?_
    refine done _ ⟨⟨h.1, keptInit.1, keptGuard.1, keptBody.1⟩, fun f => ?_⟩
    simp only [Stmt.words, keptInit.2 f, keptGuard.2 f, keptBody.2 f]
  | .commClause _ comm _ body, h => by
    refine J.bind (sound.stmt _ h) fun leave done => ?_
    refine J.bind (Stmt.visitOpt_kept comm h.2.1) fun comm' keptComm => ?_
    refine J.bind (Stmt.visitAll_kept body h.2.2.2) fun body' keptBody => ?_
    refine done _ ⟨⟨h.1, keptComm.1, h.2.2.1, keptBody.1⟩, fun f => ?_⟩
    simp only [Stmt.words, keptComm.2 f, keptBody.2 f]
  | .select _ body, h => by
    refine J.bind (sound.stmt _ h) fun leave done => ?_
    refine J.bind (body.visit_kept .inner h.2) fun body' kept => ?_
    exact done _ ⟨⟨h.1, kept.1⟩, kept.2⟩
  | .forLoop _ init cond post body, h => by
    refine J.bind (sound.stmt _ h) fun leave done => ?_
    refine J.bind (Stmt.visitOpt_kept init h.2.1) fun init' keptInit => ?_
    refine J.bind (Expr.visitOpt_kept cond h.2.2.1) fun cond' keptCond => ?_
    refine J.bind (Stmt.visitOpt_kept post h.2.2.2.1) fun post' keptPost => ?_
    refine J.bind (body.visit_kept .inner h.2.2.2.2) fun body' keptBody => ?_
    refine done _ ⟨⟨h.1, keptInit.1, keptCond.1, keptPost.1, keptBody.1⟩, fun f => ?_⟩
    simp only [Stmt.words, keptInit.2 f, keptCond.2 f, keptPost.2 f, keptBody.2 f]
  | .range _ key value _ _ operand body, h => by
    refine J.bind (sound.stmt _ h) fun leave done => ?_
    refine J.bind (Expr.visitOpt_kept key h.2.1) fun key' keptKey => ?_
    refine J.bind (Expr.visitOpt_kept value h.2.2.1) fun value' keptValue => ?_
    refine J.bind (operand.visit_kept h.2.2.2.2.2.1) fun operand' keptOperand => ?_
    refine J.bind (body.visit_kept .inner h.2.2.2.2.2.2) fun body' keptBody => ?_
    refine done _ ⟨⟨h.1, keptKey.1, keptValue.1, h.2.2.2.1, h.2.2.2.2.1, keptOperand.1,
      keptBody.1⟩, fun f => ?_⟩
    simp only [Stmt.words, keptKey.2 f, keptValue.2 f, keptOperand.2 f, keptBody.2 f]

theorem Stmt.visitOpt_kept : ∀ o : Option Stmt, Stmt.EverywhereOpt P o →
    J.Holds (Stmt.visitOpt v o) (Kept (Stmt.EverywhereOpt P) Stmt.wordsOpt faithful o)
  | none, h => J.pure ⟨h, fun _ => rfl⟩
  | some s, h => J.bind (s.visit_kept h) fun _ kept => J.pure kept

theorem Stmt.visitAll_kept : ∀ ss : List Stmt, Stmt.EverywhereAll P ss →
    J.Holds (Stmt.visitAll v ss) (Kept (Stmt.EverywhereAll P) Stmt.wordsAll faithful ss)
  | [], h => J.pure ⟨h, fun _ => rfl⟩
  | s :: ss, h => by
    refine J.bind (s.visit_kept h.1) fun s' kept => ?_
    refine J.bind (Stmt.visitAll_kept ss h.2) fun ss' keptAll => ?_
    refine J.pure ⟨⟨kept.1, keptAll.1⟩, fun f => ?_⟩
    simp only [Stmt.wordsAll, kept.2 f, keptAll.2 f]

theorem GenDecl.visit_kept : ∀ d : GenDecl, d.Everywhere P →
    J.Holds (d.visit v) (Kept (GenDecl.Everywhere P) GenDecl.words faithful d)
  | ⟨_, _, _, _, specs, _⟩, h => by
    refine J.bind (sound.decl _ h) fun leave done => ?_
    refine J.bind (Spec.visitAll_kept specs h.2.2.1) fun specs' kept => ?_
    refine done _ ⟨⟨h.1, h.2.1, kept.1, h.2.2.2⟩, fun f => ?_⟩
    simp only [GenDecl.words, Spec.wordsAll_eq, kept.2 f]

theorem Spec.visit_kept : ∀ s : Spec, s.Everywhere P →
    J.Holds (s.visit v) (Kept (Spec.Everywhere P) Spec.view faithful s)
  | .importSpec _, h => J.pure ⟨h, fun _ => rfl⟩
  | .valueSpec _ _ type _ values _, h => by
    refine J.bind (TypeExpr.visitOpt_kept type h.2.1) fun type' keptType => ?_
    refine J.bind (Expr.visitAll_kept values h.2.2.2) fun values' keptValues => ?_
    refine J.pure ⟨⟨h.1, keptType.1, h.2.2.1, keptValues.1⟩, fun f => ?_⟩
    simp only [Spec.view, Spec.import?, Spec.words, keptType.2 f, keptValues.2 f]
  | .typeSpec _ _ typeParams _ type _, h => by
    refine J.bind (FieldList.visitOpt_kept typeParams h.2.1) fun params' keptParams => ?_
    refine J.bind (type.visit_kept h.2.2.2) fun type' keptType => ?_
    refine J.pure ⟨⟨h.1, keptParams.1, h.2.2.1, keptType.1⟩, fun f => ?_⟩
    simp only [Spec.view, Spec.import?, Spec.words, keptParams.2 f, keptType.2 f]

theorem Spec.visitAll_kept : ∀ ss : List Spec, Spec.EverywhereAll P ss →
    J.Holds (Spec.visitAll v ss) (Kept (Spec.EverywhereAll P) (List.map Spec.view) faithful ss)
  | [], h => J.pure ⟨h, fun _ => rfl⟩
  | s :: ss, h => by
    refine J.bind (s.visit_kept h.1) fun s' kept => ?_
    refine J.bind (Spec.visitAll_kept ss h.2) fun ss' keptAll => ?_
    refine J.pure ⟨⟨kept.1, keptAll.1⟩, fun f => ?_⟩
    simp only [List.map_cons, kept.2 f, keptAll.2 f]

end

theorem FuncDecl.visit_kept (f : FuncDecl) (h : f.Everywhere P) :
    J.Holds (f.visit v) (Kept (FuncDecl.Everywhere P) FuncDecl.words faithful f) := by
  obtain ⟨doc, funcPos, receiver, name, typeParams, sig, body⟩ := f
  have visitBody : J.Holds (Block.visitBody v body)
      (Kept (fun o => ∀ b ∈ o, b.Everywhere P) (fun o => (o.map (·.words)).getD []) faithful body) := by
    cases body with
    | none => exact J.pure ⟨h.2.2.2.2.2, fun _ => rfl⟩
    | some b =>
      refine J.bind (Block.visit_kept sound .body b (h.2.2.2.2.2 b rfl)) fun b' kept => ?_
      refine J.pure ⟨?_, kept.2⟩
      rintro _ ⟨⟩
      exact kept.1
  refine J.bind (sound.func _ h) fun leave done => ?_
  refine J.bind (FieldList.visitOpt_kept sound receiver h.2.1) fun receiver' keptReceiver => ?_
  refine J.bind (FieldList.visitOpt_kept sound typeParams h.2.2.2.1) fun params' keptParams => ?_
  refine J.bind (Signature.visit_kept sound sig h.2.2.2.2.1) fun sig' keptSig => ?_
  refine J.bind visitBody fun body' keptBody => ?_
  refine done _ ⟨⟨h.1, keptReceiver.1, h.2.2.1, keptParams.1, keptSig.1, keptBody.1⟩, fun f => ?_⟩
  simp only [FuncDecl.words, keptReceiver.2 f, keptParams.2 f, keptSig.2 f, keptBody.2 f]

theorem Decl.visit_everywhere (d : Decl) (h : d.Everywhere P) :
    J.Holds (d.visit v) (Decl.Everywhere P) := by
  cases d with
  | gen d => exact J.bind (d.visit_kept sound h) fun _ kept => J.pure kept.1
  | func f => exact J.bind (f.visit_kept sound h) fun _ kept => J.pure kept.1

theorem Decl.visitAll_everywhere (ds : List Decl) (h : ∀ d ∈ ds, d.Everywhere P) :
    J.Holds (Decl.visitAll v ds) fun ds' => ∀ d ∈ ds', d.Everywhere P := by
  induction ds with
  | nil => exact J.pure h
  | cons d ds ih =>
    refine J.bind (d.visit_everywhere sound (h d List.mem_cons_self)) fun d' here => ?_
    refine J.bind (ih fun e mem => h e (List.mem_cons_of_mem _ mem)) fun ds' rest => ?_
    exact J.pure (List.forall_mem_cons.mpr ⟨here, rest⟩)

end Visit

/-! ### The monads of the visitors -/

/-- A plain value. -/
def Judgement.plain : Judgement Id where
  Holds x Q := Q x.run
  pure h := h
  bind hx hf := hf _ hx

/-- A computation with a counter, whatever it counts from. -/
def Judgement.counting : Judgement (StateM Nat) where
  Holds x Q := ∀ k, Q (x.run k).1
  pure h _ := h
  bind hx hf k := hf _ (hx k) _

end GoLayout
