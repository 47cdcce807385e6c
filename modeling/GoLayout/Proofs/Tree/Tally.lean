import GoLayout.Proofs.Tree.Alike
import GoLayout.Tree.Traverse

/-!
Counting traversals. A visitor that counts some of the expressions it meets, and that may put
another expression of the same shape in their place, counts as many in a tree as there are, and
leaves the tree in its shape. Which expressions count may depend on their shape only, since the
visitor meets an expression with its parts replaced.
-/

namespace GoLayout

/-- The computation adds `n` to its counter, and its result is as `Q` says. -/
def Tallies {α : Type} (x : StateM Nat α) (n : Nat) (Q : α → Prop) : Prop :=
  ∀ k, ∃ a, x.run k = (a, k + n) ∧ Q a

namespace Tallies

variable {α β : Type} {Q : α → Prop} {R : β → Prop} {n n' : Nat}

theorem pure {a : α} (h : Q a) : Tallies (Pure.pure a) 0 Q := fun _ => ⟨a, rfl, h⟩

theorem bind {x : StateM Nat α} {f : α → StateM Nat β} (h : Tallies x n Q)
    (rest : ∀ a, Q a → Tallies (f a) n' R) : Tallies (x >>= f) (n + n') R := by
  intro k
  obtain ⟨a, run, holds⟩ := h k
  obtain ⟨b, run', holds'⟩ := rest a holds (k + n)
  refine ⟨b, ?_, holds'⟩
  rw [StateT.run_bind, run, ← Nat.add_assoc]
  exact run'

/-- A computation that adds nothing, before others. -/
theorem enter {x : StateM Nat α} {f : α → StateM Nat β} (h : Tallies x 0 Q)
    (rest : ∀ a, Q a → Tallies (f a) n R) : Tallies (x >>= f) n R :=
  Nat.zero_add n ▸ h.bind rest

end Tallies

/-- Of the same shape as before. -/
abbrev SameShape {α β : Type} (shape : α → β) (before after : α) : Prop :=
  shape after = shape before

/-! ### Counting nodes -/

variable (hits : Expr → Bool)

def Node.expr? : Node → Option Expr
  | .expr e => some e
  | _ => none

/-- What a node adds to the count: one if it is an expression for which `hits` holds. -/
def Node.hit : Node → Nat
  | .expr e => (hits e).toNat
  | _ => 0

/-- The number of expressions among nodes for which `hits` holds. -/
def Node.tally : List Node → Nat
  | [] => 0
  | n :: rest => n.hit hits + tally rest

variable {hits}

theorem Node.tally_append (a b : List Node) :
    Node.tally hits (a ++ b) = Node.tally hits a + Node.tally hits b := by
  induction a with
  | nil => simp [tally]
  | cons n rest ih => simp only [List.cons_append, tally, ih, Nat.add_assoc]

theorem Node.tally_eq_countP (ns : List Node) :
    Node.tally hits ns = (ns.filterMap Node.expr?).countP hits := by
  induction ns with
  | nil => rfl
  | cons n rest ih =>
    cases n with
    | expr e =>
      simp only [tally, hit, ih, List.filterMap_cons, expr?, List.countP_cons]
      cases hits e <;> simp [Nat.add_comm]
    | _ => simpa only [tally, hit, List.filterMap_cons, expr?, Nat.zero_add] using ih

/-! A node is counted on leaving, behind its parts. -/

namespace Tallies

open Node

variable {α : Type} {Q : α → Prop} {x : StateM Nat α} {n : Node} {a b c d : List Node}

theorem part (h : Tallies x (tally hits a + 0) Q) : Tallies x (tally hits a) Q := h

theorem parts (h : Tallies x (tally hits a + (tally hits b + 0)) Q) :
    Tallies x (tally hits (a ++ b)) Q := tally_append a b ▸ h

theorem node₁ (h : Tallies x (tally hits a + n.hit hits) Q) :
    Tallies x (tally hits (n :: a)) Q := by
  rw [tally, Nat.add_comm]
  exact h

theorem node₂ (h : Tallies x (tally hits a + (tally hits b + n.hit hits)) Q) :
    Tallies x (tally hits (n :: (a ++ b))) Q := by
  apply node₁
  rw [tally_append, Nat.add_assoc]
  exact h

theorem node₃ (h : Tallies x (tally hits a + (tally hits b + (tally hits c + n.hit hits))) Q) :
    Tallies x (tally hits (n :: (a ++ b ++ c))) Q := by
  apply node₂
  rw [tally_append, Nat.add_assoc]
  exact h

theorem node₄ (h : Tallies x
      (tally hits a + (tally hits b + (tally hits c + (tally hits d + n.hit hits)))) Q) :
    Tallies x (tally hits (n :: (a ++ b ++ c ++ d))) Q := by
  apply node₃
  rw [tally_append, Nat.add_assoc]
  exact h

end Tallies

/-! ### Traversals -/

/-- At every node, `n` is added to the counter on leaving, and the shape stays. -/
def Visit.Counts {α β : Type} (shape : α → β) (n : α → Nat) (visit : Visit (StateM Nat) α) : Prop :=
  ∀ a, Tallies (visit a) 0 fun leave =>
    ∀ x, SameShape shape a x → Tallies (leave x) (n a) (SameShape shape a)

theorem Visit.counts_skip {α β : Type} {shape : α → β} :
    Visit.Counts shape (fun _ => 0) Visit.skip :=
  fun _ => .pure fun _ like => .pure like

/-- A visitor that counts the expressions for which `hits` holds and keeps all shapes. -/
structure Visitor.Counts (v : Visitor (StateM Nat)) (hits : Expr → Bool) : Prop where
  expr : Visit.Counts Expr.shape (fun e => (Node.expr e).hit hits) v.expr
  type : Visit.Counts TypeExpr.shape (fun _ => 0) v.type
  sig : Visit.Counts Signature.shape (fun _ => 0) v.sig
  block : ∀ role, Visit.Counts Block.shape (fun _ => 0) (v.block role)
  stmt : Visit.Counts Stmt.shape (fun _ => 0) v.stmt
  decl : Visit.Counts GenDecl.shape (fun _ => 0) v.decl
  func : Visit.Counts FuncDecl.shape (fun _ => 0) v.func

section Visit

-- The recursive theorems below share their hypothesis, though not each of them uses it.
set_option linter.unusedSectionVars false

variable {v : Visitor (StateM Nat)} (counts : v.Counts hits)

include counts

mutual

theorem Expr.visit_tallies : ∀ e : Expr,
    Tallies (e.visit v) (Node.tally hits e.nodes) (SameShape Expr.shape e)
  | .ident name =>
    (counts.expr (.ident name)).enter fun _ done => done _ rfl
  | .literal lit =>
    (counts.expr (.literal lit)).enter fun _ done => done _ rfl
  | .func funcPos sig body =>
    .node₂ ((counts.expr (.func funcPos sig body)).enter fun _ done =>
      sig.visit_tallies.bind fun sig' likeSig =>
      (body.visit_tallies .body).bind fun body' likeBody =>
      done (.func funcPos sig' body') (congrArg₂ (Expr.func .zero) likeSig likeBody))
  | .composite type lbrace elements rbrace =>
    .node₂ ((counts.expr (.composite type lbrace elements rbrace)).enter fun _ done =>
      (TypeExpr.visitOpt_tallies type).bind fun type' likeType =>
      (Expr.visitAll_tallies elements).bind fun elements' likeElements =>
      done (.composite type' lbrace elements' rbrace)
        (congrArg₂ (Expr.composite · .zero · .zero) likeType likeElements))
  | .paren lparen inner rparen =>
    .node₁ ((counts.expr (.paren lparen inner rparen)).enter fun _ done =>
      inner.visit_tallies.bind fun inner' likeInner =>
      done (.paren lparen inner' rparen) (congrArg (Expr.paren .zero · .zero) likeInner))
  | .selector operand dot member =>
    .node₁ ((counts.expr (.selector operand dot member)).enter fun _ done =>
      operand.visit_tallies.bind fun operand' likeOperand =>
      done (.selector operand' dot member) (by simp only [SameShape, Expr.shape, likeOperand]))
  | .index operand lbrack indices rbrack =>
    .node₂ ((counts.expr (.index operand lbrack indices rbrack)).enter fun _ done =>
      operand.visit_tallies.bind fun operand' likeOperand =>
      (Expr.visitAll_tallies indices).bind fun indices' likeIndices =>
      done (.index operand' lbrack indices' rbrack)
        (congrArg₂ (Expr.index · .zero · .zero) likeOperand likeIndices))
  | .slice operand lbrack lo hi max full rbrack =>
    .node₄ ((counts.expr (.slice operand lbrack lo hi max full rbrack)).enter fun _ done =>
      operand.visit_tallies.bind fun operand' likeOperand =>
      (Expr.visitOpt_tallies lo).bind fun lo' likeLo =>
      (Expr.visitOpt_tallies hi).bind fun hi' likeHi =>
      (Expr.visitOpt_tallies max).bind fun max' likeMax =>
      done (.slice operand' lbrack lo' hi' max' full rbrack)
        (by simp only [SameShape, Expr.shape, likeOperand, likeLo, likeHi, likeMax]))
  | .assertion operand dot lparen type rparen =>
    .node₂ ((counts.expr (.assertion operand dot lparen type rparen)).enter fun _ done =>
      operand.visit_tallies.bind fun operand' likeOperand =>
      (TypeExpr.visitOpt_tallies type).bind fun type' likeType =>
      done (.assertion operand' dot lparen type' rparen)
        (congrArg₂ (Expr.assertion · .zero .zero · .zero) likeOperand likeType))
  | .call fn lparen args spread rparen =>
    .node₂ ((counts.expr (.call fn lparen args spread rparen)).enter fun _ done =>
      fn.visit_tallies.bind fun fn' likeFn =>
      (Expr.visitAll_tallies args).bind fun args' likeArgs =>
      done (.call fn' lparen args' spread rparen)
        (by simp only [SameShape, Expr.shape, likeFn, likeArgs]))
  | .unary op opPos operand =>
    .node₁ ((counts.expr (.unary op opPos operand)).enter fun _ done =>
      operand.visit_tallies.bind fun operand' likeOperand =>
      done (.unary op opPos operand') (by simp only [SameShape, Expr.shape, likeOperand]))
  | .binary left op opPos right =>
    .node₂ ((counts.expr (.binary left op opPos right)).enter fun _ done =>
      left.visit_tallies.bind fun left' likeLeft =>
      right.visit_tallies.bind fun right' likeRight =>
      done (.binary left' op opPos right')
        (by simp only [SameShape, Expr.shape, likeLeft, likeRight]))
  | .keyValue key colon value =>
    .node₂ ((counts.expr (.keyValue key colon value)).enter fun _ done =>
      key.visit_tallies.bind fun key' likeKey =>
      value.visit_tallies.bind fun value' likeValue =>
      done (.keyValue key' colon value') (congrArg₂ (Expr.keyValue · .zero ·) likeKey likeValue))
  | .type t =>
    .node₁ ((counts.expr (.type t)).enter fun _ done =>
      t.visit_tallies.bind fun t' likeT =>
      done (.type t') (congrArg Expr.type likeT))

theorem Expr.visitOpt_tallies : ∀ o : Option Expr,
    Tallies (Expr.visitOpt v o) (Node.tally hits (Expr.nodesOpt o)) (SameShape Expr.shapeOpt o)
  | none => .pure rfl
  | some e => .part (e.visit_tallies.bind fun _ like => .pure (congrArg some like))

theorem Expr.visitAll_tallies : ∀ es : List Expr,
    Tallies (Expr.visitAll v es) (Node.tally hits (Expr.nodesAll es)) (SameShape Expr.shapeAll es)
  | [] => .pure rfl
  | e :: es =>
    .parts (e.visit_tallies.bind fun _ like =>
      (Expr.visitAll_tallies es).bind fun _ likeRest => .pure (congrArg₂ List.cons like likeRest))

theorem TypeExpr.visit_tallies : ∀ t : TypeExpr,
    Tallies (t.visit v) (Node.tally hits t.nodes) (SameShape TypeExpr.shape t)
  | .named qualifier name =>
    (counts.type (.named qualifier name)).enter fun _ done => done _ rfl
  | .generic qualifier name lbrack args rbrack =>
    .node₁ ((counts.type (.generic qualifier name lbrack args rbrack)).enter fun _ done =>
      (TypeExpr.visitAll_tallies args).bind fun args' likeArgs =>
      done (.generic qualifier name lbrack args' rbrack)
        (by simp only [SameShape, TypeExpr.shape, likeArgs]))
  | .pointer star elem =>
    .node₁ ((counts.type (.pointer star elem)).enter fun _ done =>
      elem.visit_tallies.bind fun elem' likeElem =>
      done (.pointer star elem') (congrArg (TypeExpr.pointer .zero) likeElem))
  | .array lbrack len rbrack elem =>
    .node₂ ((counts.type (.array lbrack len rbrack elem)).enter fun _ done =>
      len.visit_tallies.bind fun len' likeLen =>
      elem.visit_tallies.bind fun elem' likeElem =>
      done (.array lbrack len' rbrack elem')
        (congrArg₂ (TypeExpr.array .zero · .zero ·) likeLen likeElem))
  | .countedArray lbrack dots rbrack elem =>
    .node₁ ((counts.type (.countedArray lbrack dots rbrack elem)).enter fun _ done =>
      elem.visit_tallies.bind fun elem' likeElem =>
      done (.countedArray lbrack dots rbrack elem')
        (congrArg (TypeExpr.countedArray .zero .zero .zero) likeElem))
  | .slice lbrack rbrack elem =>
    .node₁ ((counts.type (.slice lbrack rbrack elem)).enter fun _ done =>
      elem.visit_tallies.bind fun elem' likeElem =>
      done (.slice lbrack rbrack elem') (congrArg (TypeExpr.slice .zero .zero) likeElem))
  | .map mapPos lbrack key rbrack value =>
    .node₂ ((counts.type (.map mapPos lbrack key rbrack value)).enter fun _ done =>
      key.visit_tallies.bind fun key' likeKey =>
      value.visit_tallies.bind fun value' likeValue =>
      done (.map mapPos lbrack key' rbrack value')
        (congrArg₂ (TypeExpr.map .zero .zero · .zero ·) likeKey likeValue))
  | .chan dir chanPos elem =>
    .node₁ ((counts.type (.chan dir chanPos elem)).enter fun _ done =>
      elem.visit_tallies.bind fun elem' likeElem =>
      done (.chan dir chanPos elem') (by simp only [SameShape, TypeExpr.shape, likeElem]))
  | .struct structPos fields =>
    .node₁ ((counts.type (.struct structPos fields)).enter fun _ done =>
      fields.visit_tallies.bind fun fields' likeFields =>
      done (.struct structPos fields') (congrArg (TypeExpr.struct .zero) likeFields))
  | .interface interfacePos elements =>
    .node₁ ((counts.type (.interface interfacePos elements)).enter fun _ done =>
      elements.visit_tallies.bind fun elements' likeElements =>
      done (.interface interfacePos elements') (congrArg (TypeExpr.interface .zero) likeElements))
  | .func funcPos sig =>
    .node₁ ((counts.type (.func funcPos sig)).enter fun _ done =>
      sig.visit_tallies.bind fun sig' likeSig =>
      done (.func funcPos sig') (by simp only [SameShape, TypeExpr.shape, likeSig]))
  | .paren lparen inner rparen =>
    .node₁ ((counts.type (.paren lparen inner rparen)).enter fun _ done =>
      inner.visit_tallies.bind fun inner' likeInner =>
      done (.paren lparen inner' rparen) (congrArg (TypeExpr.paren .zero · .zero) likeInner))
  | .variadic dots elem =>
    .node₁ ((counts.type (.variadic dots elem)).enter fun _ done =>
      elem.visit_tallies.bind fun elem' likeElem =>
      done (.variadic dots elem') (congrArg (TypeExpr.variadic .zero) likeElem))
  | .union terms =>
    .node₁ ((counts.type (.union terms)).enter fun _ done =>
      (TypeExpr.visitAll_tallies terms).bind fun terms' likeTerms =>
      done (.union terms') (congrArg TypeExpr.union likeTerms))
  | .tilde tildePos inner =>
    .node₁ ((counts.type (.tilde tildePos inner)).enter fun _ done =>
      inner.visit_tallies.bind fun inner' likeInner =>
      done (.tilde tildePos inner') (congrArg (TypeExpr.tilde .zero) likeInner))

theorem TypeExpr.visitOpt_tallies : ∀ o : Option TypeExpr,
    Tallies (TypeExpr.visitOpt v o) (Node.tally hits (TypeExpr.nodesOpt o))
      (SameShape TypeExpr.shapeOpt o)
  | none => .pure rfl
  | some t => .part (t.visit_tallies.bind fun _ like => .pure (congrArg some like))

theorem TypeExpr.visitAll_tallies : ∀ ts : List TypeExpr,
    Tallies (TypeExpr.visitAll v ts) (Node.tally hits (TypeExpr.nodesAll ts))
      (SameShape TypeExpr.shapeAll ts)
  | [] => .pure rfl
  | t :: ts =>
    .parts (t.visit_tallies.bind fun _ like =>
      (TypeExpr.visitAll_tallies ts).bind fun _ likeRest =>
      .pure (congrArg₂ List.cons like likeRest))

theorem Field.visit_tallies : ∀ f : Field,
    Tallies (f.visit v) (Node.tally hits f.nodes) (SameShape Field.shape f)
  | ⟨_, _, type, _, _⟩ =>
    .node₁ (type.visit_tallies.bind fun _ like =>
      .pure (by simp only [SameShape, Field.shape, like]))

theorem Field.visitAll_tallies : ∀ fs : List Field,
    Tallies (Field.visitAll v fs) (Node.tally hits (Field.nodesAll fs))
      (SameShape Field.shapeAll fs)
  | [] => .pure rfl
  | f :: fs =>
    .parts (f.visit_tallies.bind fun _ like =>
      (Field.visitAll_tallies fs).bind fun _ likeRest => .pure (congrArg₂ List.cons like likeRest))

theorem FieldList.visit_tallies : ∀ l : FieldList,
    Tallies (l.visit v) (Node.tally hits l.nodes) (SameShape FieldList.shape l)
  | ⟨_, fields⟩ =>
    .part ((Field.visitAll_tallies fields).bind fun _ like =>
      .pure (congrArg (FieldList.mk none) like))

theorem FieldList.visitOpt_tallies : ∀ o : Option FieldList,
    Tallies (FieldList.visitOpt v o) (Node.tally hits (FieldList.nodesOpt o))
      (SameShape FieldList.shapeOpt o)
  | none => .pure rfl
  | some l => .part (l.visit_tallies.bind fun _ like => .pure (congrArg some like))

theorem Signature.visit_tallies : ∀ s : Signature,
    Tallies (s.visit v) (Node.tally hits s.nodes) (SameShape Signature.shape s)
  | ⟨params, results⟩ =>
    .node₂ ((counts.sig ⟨params, results⟩).enter fun _ done =>
      params.visit_tallies.bind fun params' likeParams =>
      (FieldList.visitOpt_tallies results).bind fun results' likeResults =>
      done ⟨params', results'⟩ (congrArg₂ Signature.mk likeParams likeResults))

theorem Block.visit_tallies (role : BlockRole) : ∀ b : Block,
    Tallies (b.visit v role) (Node.tally hits b.nodes) (SameShape Block.shape b)
  | ⟨lbrace, stmts, rbrace⟩ =>
    (counts.block role ⟨lbrace, stmts, rbrace⟩).enter fun _ done =>
      .part ((Stmt.visitAll_tallies stmts).bind fun stmts' like =>
      done ⟨lbrace, stmts', rbrace⟩ (congrArg (Block.mk .zero · .zero) like))

theorem Stmt.visit_tallies : ∀ s : Stmt,
    Tallies (s.visit v) (Node.tally hits s.nodes) (SameShape Stmt.shape s)
  | .decl d =>
    .node₁ ((counts.stmt (.decl d)).enter fun _ done =>
      d.visit_tallies.bind fun d' likeD =>
      done (.decl d') (congrArg Stmt.decl likeD))
  | .empty span =>
    (counts.stmt (.empty span)).enter fun _ done => done _ rfl
  | .labeled label colon stmt =>
    .node₁ ((counts.stmt (.labeled label colon stmt)).enter fun _ done =>
      stmt.visit_tallies.bind fun stmt' likeStmt =>
      done (.labeled label colon stmt') (by simp only [SameShape, Stmt.shape, likeStmt]))
  | .expr e =>
    .node₁ ((counts.stmt (.expr e)).enter fun _ done =>
      e.visit_tallies.bind fun e' likeE =>
      done (.expr e') (congrArg Stmt.expr likeE))
  | .send chan arrow value =>
    .node₂ ((counts.stmt (.send chan arrow value)).enter fun _ done =>
      chan.visit_tallies.bind fun chan' likeChan =>
      value.visit_tallies.bind fun value' likeValue =>
      done (.send chan' arrow value') (congrArg₂ (Stmt.send · .zero ·) likeChan likeValue))
  | .incDec operand op opPos =>
    .node₁ ((counts.stmt (.incDec operand op opPos)).enter fun _ done =>
      operand.visit_tallies.bind fun operand' likeOperand =>
      done (.incDec operand' op opPos) (by simp only [SameShape, Stmt.shape, likeOperand]))
  | .assign lhs op opPos rhs =>
    .node₂ ((counts.stmt (.assign lhs op opPos rhs)).enter fun _ done =>
      (Expr.visitAll_tallies lhs).bind fun lhs' likeLhs =>
      (Expr.visitAll_tallies rhs).bind fun rhs' likeRhs =>
      done (.assign lhs' op opPos rhs') (by simp only [SameShape, Stmt.shape, likeLhs, likeRhs]))
  | .go goPos call =>
    .node₁ ((counts.stmt (.go goPos call)).enter fun _ done =>
      call.visit_tallies.bind fun call' likeCall =>
      done (.go goPos call') (congrArg (Stmt.go .zero) likeCall))
  | .defer deferPos call =>
    .node₁ ((counts.stmt (.defer deferPos call)).enter fun _ done =>
      call.visit_tallies.bind fun call' likeCall =>
      done (.defer deferPos call') (congrArg (Stmt.defer .zero) likeCall))
  | .returns returnPos results =>
    .node₁ ((counts.stmt (.returns returnPos results)).enter fun _ done =>
      (Expr.visitAll_tallies results).bind fun results' likeResults =>
      done (.returns returnPos results') (congrArg (Stmt.returns .zero) likeResults))
  | .branch kind kwPos label =>
    (counts.stmt (.branch kind kwPos label)).enter fun _ done => done _ rfl
  | .block b =>
    .node₁ ((counts.stmt (.block b)).enter fun _ done =>
      (b.visit_tallies .inner).bind fun b' likeB =>
      done (.block b') (congrArg Stmt.block likeB))
  | .ifElse ifPos init cond body orElse =>
    .node₄ ((counts.stmt (.ifElse ifPos init cond body orElse)).enter fun _ done =>
      (Stmt.visitOpt_tallies init).bind fun init' likeInit =>
      cond.visit_tallies.bind fun cond' likeCond =>
      (body.visit_tallies .inner).bind fun body' likeBody =>
      (Stmt.visitOpt_tallies orElse).bind fun orElse' likeOrElse =>
      done (.ifElse ifPos init' cond' body' orElse')
        (by simp only [SameShape, Stmt.shape, likeInit, likeCond, likeBody, likeOrElse]))
  | .caseClause casePos values colon body =>
    .node₂ ((counts.stmt (.caseClause casePos values colon body)).enter fun _ done =>
      (Expr.visitAll_tallies values).bind fun values' likeValues =>
      (Stmt.visitAll_tallies body).bind fun body' likeBody =>
      done (.caseClause casePos values' colon body')
        (congrArg₂ (Stmt.caseClause .zero · .zero ·) likeValues likeBody))
  | .switch switchPos init tag body =>
    .node₃ ((counts.stmt (.switch switchPos init tag body)).enter fun _ done =>
      (Stmt.visitOpt_tallies init).bind fun init' likeInit =>
      (Expr.visitOpt_tallies tag).bind fun tag' likeTag =>
      (body.visit_tallies .inner).bind fun body' likeBody =>
      done (.switch switchPos init' tag' body')
        (by simp only [SameShape, Stmt.shape, likeInit, likeTag, likeBody]))
  | .typeSwitch switchPos init guarded body =>
    .node₃ ((counts.stmt (.typeSwitch switchPos init guarded body)).enter fun _ done =>
      (Stmt.visitOpt_tallies init).bind fun init' likeInit =>
      guarded.visit_tallies.bind fun guarded' likeGuarded =>
      (body.visit_tallies .inner).bind fun body' likeBody =>
      done (.typeSwitch switchPos init' guarded' body')
        (by simp only [SameShape, Stmt.shape, likeInit, likeGuarded, likeBody]))
  | .commClause casePos comm colon body =>
    .node₂ ((counts.stmt (.commClause casePos comm colon body)).enter fun _ done =>
      (Stmt.visitOpt_tallies comm).bind fun comm' likeComm =>
      (Stmt.visitAll_tallies body).bind fun body' likeBody =>
      done (.commClause casePos comm' colon body')
        (congrArg₂ (Stmt.commClause .zero · .zero ·) likeComm likeBody))
  | .select selectPos body =>
    .node₁ ((counts.stmt (.select selectPos body)).enter fun _ done =>
      (body.visit_tallies .inner).bind fun body' likeBody =>
      done (.select selectPos body') (congrArg (Stmt.select .zero) likeBody))
  | .forLoop forPos init cond post body =>
    .node₄ ((counts.stmt (.forLoop forPos init cond post body)).enter fun _ done =>
      (Stmt.visitOpt_tallies init).bind fun init' likeInit =>
      (Expr.visitOpt_tallies cond).bind fun cond' likeCond =>
      (Stmt.visitOpt_tallies post).bind fun post' likePost =>
      (body.visit_tallies .inner).bind fun body' likeBody =>
      done (.forLoop forPos init' cond' post' body')
        (by simp only [SameShape, Stmt.shape, likeInit, likeCond, likePost, likeBody]))
  | .range forPos key value op rangePos operand body =>
    .node₄ ((counts.stmt (.range forPos key value op rangePos operand body)).enter fun _ done =>
      (Expr.visitOpt_tallies key).bind fun key' likeKey =>
      (Expr.visitOpt_tallies value).bind fun value' likeValue =>
      operand.visit_tallies.bind fun operand' likeOperand =>
      (body.visit_tallies .inner).bind fun body' likeBody =>
      done (.range forPos key' value' op rangePos operand' body')
        (by simp only [SameShape, Stmt.shape, likeKey, likeValue, likeOperand, likeBody]))

theorem Stmt.visitOpt_tallies : ∀ o : Option Stmt,
    Tallies (Stmt.visitOpt v o) (Node.tally hits (Stmt.nodesOpt o)) (SameShape Stmt.shapeOpt o)
  | none => .pure rfl
  | some s => .part (s.visit_tallies.bind fun _ like => .pure (congrArg some like))

theorem Stmt.visitAll_tallies : ∀ ss : List Stmt,
    Tallies (Stmt.visitAll v ss) (Node.tally hits (Stmt.nodesAll ss)) (SameShape Stmt.shapeAll ss)
  | [] => .pure rfl
  | s :: ss =>
    .parts (s.visit_tallies.bind fun _ like =>
      (Stmt.visitAll_tallies ss).bind fun _ likeRest => .pure (congrArg₂ List.cons like likeRest))

theorem GenDecl.visit_tallies : ∀ d : GenDecl,
    Tallies (d.visit v) (Node.tally hits d.nodes) (SameShape GenDecl.shape d)
  | ⟨doc, kwPos, kind, lparen, specs, rparen⟩ =>
    .node₁ ((counts.decl ⟨doc, kwPos, kind, lparen, specs, rparen⟩).enter fun _ done =>
      (Spec.visitAll_tallies specs).bind fun specs' like =>
      done ⟨doc, kwPos, kind, lparen, specs', rparen⟩
        (by simp only [SameShape, GenDecl.shape, like]))

theorem Spec.visit_tallies : ∀ s : Spec,
    Tallies (s.visit v) (Node.tally hits s.nodes) (SameShape Spec.shape s)
  | .importSpec _ => .pure rfl
  | .valueSpec _ _ type _ values _ =>
    .parts ((TypeExpr.visitOpt_tallies type).bind fun _ likeType =>
      (Expr.visitAll_tallies values).bind fun _ likeValues =>
      .pure (by simp only [SameShape, Spec.shape, likeType, likeValues]))
  | .typeSpec _ _ typeParams _ type _ =>
    .parts ((FieldList.visitOpt_tallies typeParams).bind fun _ likeParams =>
      type.visit_tallies.bind fun _ likeType =>
      .pure (by simp only [SameShape, Spec.shape, likeParams, likeType]))

theorem Spec.visitAll_tallies : ∀ ss : List Spec,
    Tallies (Spec.visitAll v ss) (Node.tally hits (Spec.nodesAll ss)) (SameShape Spec.shapeAll ss)
  | [] => .pure rfl
  | s :: ss =>
    .parts (s.visit_tallies.bind fun _ like =>
      (Spec.visitAll_tallies ss).bind fun _ likeRest => .pure (congrArg₂ List.cons like likeRest))

end

theorem Block.visitBody_tallies (o : Option Block) :
    Tallies (Block.visitBody v o) (Node.tally hits ((o.map (·.nodes)).getD []))
      (SameShape (Option.map Block.shape) o) := by
  cases o with
  | none => exact .pure rfl
  | some b =>
    exact .part ((b.visit_tallies counts .body).bind fun _ like => .pure (congrArg some like))

theorem FuncDecl.visit_tallies (f : FuncDecl) :
    Tallies (f.visit v) (Node.tally hits f.nodes) (SameShape FuncDecl.shape f) := by
  refine .node₄ ((counts.func f).enter fun _ done =>
    (FieldList.visitOpt_tallies counts f.receiver).bind fun receiver' likeReceiver =>
    (FieldList.visitOpt_tallies counts f.typeParams).bind fun typeParams' likeParams =>
    (f.sig.visit_tallies counts).bind fun sig' likeSig =>
    (Block.visitBody_tallies counts f.body).bind fun body' likeBody => done _ ?_)
  simp only [SameShape, FuncDecl.shape, ← FieldList.shapeOpt_eq_map, likeReceiver, likeParams,
    likeSig, likeBody]

theorem Decl.visit_tallies (d : Decl) :
    Tallies (d.visit v) (Node.tally hits d.nodes) (SameShape Decl.shape d) := by
  cases d with
  | gen d =>
    exact .part ((d.visit_tallies counts).bind fun _ like => .pure (congrArg Decl.gen like))
  | func f =>
    exact .part ((f.visit_tallies counts).bind fun _ like => .pure (congrArg Decl.func like))

/-- A counting visitor counts the expressions of a file for which `hits` holds. -/
theorem Decl.visitAll_tallies (ds : List Decl) :
    Tallies (Decl.visitAll v ds) (Node.tally hits (ds.flatMap Decl.nodes))
      (SameShape (List.map Decl.shape) ds) := by
  induction ds with
  | nil => exact .pure rfl
  | cons d ds ih =>
    exact .parts ((d.visit_tallies counts).bind fun _ like =>
      ih.bind fun _ likeRest => .pure (congrArg₂ List.cons like likeRest))

end Visit

end GoLayout
