import GoLayout.Proofs.Tidy.CommentedImports
import GoLayout.Proofs.Tidy.Parameters

/-!
The structs of a file while it is tidied. The merging of fields drops plain types only, in which
there are no structs, and it is not for the fields of a struct, so each struct stays in its place
with its fields in their order, each with its names, its tag and its comments.
-/

namespace GoLayout

/-! ### The structs among nodes -/

/-- What a field has beside its type. -/
abbrev Field.Frame := Link × List Ident × Option Literal × Link

def Field.frame (f : Field) : Field.Frame := (f.doc, f.names, f.tag, f.comment)

namespace Node

/-- The fields of a struct, but for their types. -/
def struct? : Node → Option (List Field.Frame)
  | .type (.struct _ fields) => some (fields.fields.map Field.frame)
  | _ => none

/-- The parameters of a signature. -/
def params? : Node → Option FieldList
  | .sig s => some s.params
  | _ => none

/-- The structs among nodes. -/
def structs (ns : List Node) : List (List Field.Frame) := ns.filterMap struct?

end Node

/-- For each struct in a file, its fields. -/
def SourceFile.structs (f : SourceFile) : List (List Field.Frame) := Node.structs f.nodes

/-- There are the same structs among other nodes. -/
def SameStructs (ns ns' : List Node) : Prop := Node.structs ns' = Node.structs ns

namespace SameStructs

variable {a a' b b' c : List Node}

theorem refl (ns : List Node) : SameStructs ns ns := rfl

theorem trans (first : SameStructs a b) (second : SameStructs b c) : SameStructs a c :=
  Eq.trans second first

theorem append (left : SameStructs a a') (right : SameStructs b b') :
    SameStructs (a ++ b) (a' ++ b') := by
  unfold SameStructs Node.structs at *
  rw [List.filterMap_append, List.filterMap_append, left, right]

theorem node {n n' : Node} (here : n'.struct? = n.struct?) (parts : SameStructs a a') :
    SameStructs (n :: a) (n' :: a') := by
  unfold SameStructs Node.structs at *
  rw [List.filterMap_cons, List.filterMap_cons, here, parts]

end SameStructs

/-! ### Field lists -/

/-- In a plain type there is no struct. -/
theorem TypeExpr.structs_of_isPlainName {t : TypeExpr} (plain : t.isPlainName = true) :
    Node.structs t.nodes = [] := by
  unfold isPlainName at plain
  split at plain
  · rfl
  · nomatch plain

/-- What becomes of a field: its type may change, but stays plain if it is. -/
structure Field.Keeps (f f' : Field) : Prop where
  frame : f'.frame = f.frame
  plain : f.type.isPlainName = true → f'.type.isPlainName = true
  structs : SameStructs f.nodes f'.nodes

/-- What becomes of the fields of a list. -/
def FieldList.Keeps (l l' : FieldList) : Prop := List.Forall₂ Field.Keeps l.fields l'.fields

namespace Field

theorem structs_nodes (f : Field) : Node.structs f.nodes = Node.structs f.type.nodes := by
  cases f
  rfl

theorem structs_mergeMarked {last : Field} {fs : List Field} {marks : List Bool}
    (plain : PlainMarks fs marks) :
    SameStructs (nodesAll (last :: fs)) (nodesAll (mergeMarked last fs marks)) := by
  induction fs generalizing last marks with
  | nil => exact .refl _
  | cons f fs ih =>
    cases marks with
    | nil =>
      rw [mergeMarked_nil]
      exact .refl _
    | cons mark marks =>
      obtain ⟨here, behind⟩ := List.forall_mem_cons.mp plain
      cases mark with
      | false => exact .append (.refl _) (ih behind)
      | true =>
        obtain ⟨_, _, type, _, _⟩ := last
        have dropped : SameStructs f.nodes [] := by
          unfold SameStructs
          rw [structs_nodes, TypeExpr.structs_of_isPlainName (here rfl)]
          rfl
        exact .trans (.append (.node rfl (.refl type.nodes)) (.append dropped (.refl _))) (ih behind)

/-- Marks that are told from fields hold for what becomes of these. -/
theorem PlainMarks.of_keeps {fs fs' : List Field} (keeps : List.Forall₂ Keeps fs fs')
    {marks : List Bool} (plain : PlainMarks fs marks) : PlainMarks fs' marks := by
  induction keeps generalizing marks with
  | nil => exact plain
  | cons kept _ ih =>
    cases marks with
    | nil => exact plainMarks_nil _
    | cons mark marks =>
      obtain ⟨here, behind⟩ := List.forall_mem_cons.mp plain
      exact List.forall_mem_cons.mpr ⟨fun marked => kept.plain (here marked), ih behind⟩

end Field

namespace FieldList

/-- The marked fields of a list, of which the first is none, have plain names for types. -/
def PlainMarks (l : FieldList) (marks : List Bool) : Prop := Field.PlainMarks l.fields.tail marks

theorem plainMarks_sharing (lines : LineTable) (l : FieldList) :
    l.PlainMarks (l.sharing lines) := by
  obtain ⟨brackets, fields⟩ := l
  cases fields with
  | nil => exact nofun
  | cons f rest => exact Field.plainMarks_sharing f rest

namespace Keeps

variable {l l' : FieldList}

theorem frames (h : l.Keeps l') : l'.fields.map Field.frame = l.fields.map Field.frame := by
  obtain ⟨_, fields⟩ := l
  obtain ⟨_, fields'⟩ := l'
  change List.Forall₂ Field.Keeps fields fields' at h
  change fields'.map Field.frame = fields.map Field.frame
  induction h with
  | nil => rfl
  | cons kept _ ih => rw [List.map_cons, List.map_cons, kept.frame, ih]

theorem structs (h : l.Keeps l') : SameStructs l.nodes l'.nodes := by
  obtain ⟨_, fields⟩ := l
  obtain ⟨_, fields'⟩ := l'
  change List.Forall₂ Field.Keeps fields fields' at h
  change SameStructs (Field.nodesAll fields) (Field.nodesAll fields')
  induction h with
  | nil => exact .refl _
  | cons kept _ ih => exact kept.structs.append ih

theorem mergeMarked (h : l.Keeps l') {marks : List Bool} (plain : l.PlainMarks marks) :
    SameStructs l.nodes (l'.mergeMarked marks).nodes := by
  refine h.structs.trans ?_
  obtain ⟨_, fields⟩ := l
  obtain ⟨_, fields'⟩ := l'
  cases h with
  | nil => exact .refl _
  | cons _ behind => exact Field.structs_mergeMarked (plain.of_keeps behind)

end Keeps

end FieldList

theorem SameStructs.opt {o o' : Option FieldList} (h : Option.Rel FieldList.Keeps o o') :
    SameStructs (FieldList.nodesOpt o) (FieldList.nodesOpt o') := by
  cases h with
  | none => exact .refl _
  | some kept => exact kept.structs

theorem SameStructs.mergeMarkedOpt {o o' : Option FieldList}
    (h : Option.Rel FieldList.Keeps o o') {marks : List Bool}
    (plain : ∀ l ∈ o, l.PlainMarks marks) :
    SameStructs (FieldList.nodesOpt o) (FieldList.nodesOpt (o'.map (·.mergeMarked marks))) := by
  cases h with
  | none => exact .refl _
  | some kept => exact kept.mergeMarked (plain _ rfl)

namespace Tidy

variable {opts : Options} {comments : List CommentGroup}

/-! ### Steps of tidying -/

/-- Where a step of tidying succeeds, its result is as told. -/
def Leaves {α : Type} (x : Tidying α) (Q : α → Prop) : Prop :=
  ∀ depth t, Gives (x.run depth) t fun r _ => Q r.1

namespace Leaves

variable {α β : Type} {x : Tidying α} {Q : α → Prop} {R : β → Prop}

theorem pure {a : α} (h : Q a) : Leaves (Pure.pure a) Q := fun _ _ => .pure h

theorem bind {f : α → Tidying β} (first : Leaves x Q) (next : ∀ a, Q a → Leaves (f a) R) :
    Leaves (x >>= f) R := fun depth t =>
  .bind (first depth t) fun r t' holds => next r.1 holds r.2 t'

theorem pure_bind {a : α} {f : α → Tidying β} (h : Leaves (f a) R) : Leaves (Pure.pure a >>= f) R :=
  .bind (Q := (· = a)) (.pure rfl) fun _ same => same ▸ h

theorem any : Leaves x fun _ => True := fun _ _ => .any

theorem mono {Q' : α → Prop} (h : Leaves x Q) (weaker : ∀ a, Q a → Q' a) : Leaves x Q' :=
  fun depth t => (h depth t).mono fun r _ => weaker r.1

theorem lift {y : Relining α} (h : ∀ t, Gives y t fun a _ => Q a) : Leaves (liftM y) Q :=
  fun _ t => .bind (h t) fun _ _ holds => .pure holds

end Leaves

/-- At every node something is done that keeps the structs. -/
def KeepsStructs {α : Type} (nodes : α → List Node) (visit : Visit Tidying α) : Prop :=
  ∀ a, Leaves (visit a) fun leave => ∀ a', SameStructs (nodes a) (nodes a') →
    Leaves (leave a') fun b => SameStructs (nodes a) (nodes b)

theorem onExpr_structs : KeepsStructs Expr.nodes (visitor opts comments).expr := by
  change KeepsStructs Expr.nodes (onExpr opts)
  intro e
  unfold onExpr
  split
  · exact .bind .any fun _ _ => .pure fun _ same => .pure same
  · exact .pure fun _ _ => .pure rfl
  · exact .pure fun _ same => .pure same

theorem onBlock_structs (role : BlockRole) :
    KeepsStructs Block.nodes ((visitor opts comments).block role) := fun _ =>
  .bind .any fun _ _ => .bind .any fun _ _ => .bind .any fun _ _ => .pure fun _ same =>
    .bind .any fun _ _ => .pure same

/-- Names that are assigned to have no structs, and of the values they are given all stay. -/
theorem structs_assignment (s : Stmt) : SameStructs s.nodes (assignment s).nodes := by
  unfold assignment
  split
  · rename_i names assign v vs _ _
    have ofNames : SameStructs [] (Expr.nodesAll (names.map .ident)) := by
      induction names with
      | nil => exact .refl _
      | cons _ _ ih => exact ih
    have ofValues : SameStructs (Expr.nodesAll (v :: vs) ++ []) (Expr.nodesAll (v :: vs)) := by
      rw [List.append_nil]
      exact .refl _
    exact ofNames.append ofValues
  · exact .refl _

theorem onStmt_structs : KeepsStructs Stmt.nodes (visitor opts comments).stmt := by
  change KeepsStructs Stmt.nodes (onStmt opts comments)
  intro s
  unfold onStmt
  split
  · exact .pure fun _ same => .pure (same.trans (structs_assignment _))
  · exact .bind .any fun _ _ => .bind .any fun _ _ => .bind .any fun _ _ =>
      .pure fun _ same => .pure same
  · exact .bind .any fun _ _ => .pure fun _ same => .pure same
  · exact .pure fun _ same => .pure same

theorem onDecl_structs : KeepsStructs GenDecl.nodes (visitor opts comments).decl := fun _ =>
  .bind .any fun _ _ => .pure fun ⟨_, _, _, _, _, _⟩ same => .pure same

theorem sharing_plain (l : FieldList) (t : LineTable) :
    Gives (sharing opts l) t fun marks _ => l.PlainMarks marks := by
  refine .get_bind (.pure ?_)
  split
  · exact l.plainMarks_sharing t
  · exact Field.plainMarks_nil _

theorem sharingOpt_plain (o : Option FieldList) (t : LineTable) :
    Gives (sharingOpt opts o) t fun marks _ => ∀ l ∈ o, l.PlainMarks marks := by
  cases o with
  | none => exact .pure nofun
  | some l =>
    refine (sharing_plain l t).mono ?_
    rintro marks - plain _ ⟨⟩
    exact plain

theorem onInterface_structs (pos : Span) (elements : FieldList) :
    Leaves ((visitor opts comments).type (.interface pos elements)) fun leave =>
      ∀ elements', elements.Keeps elements' → Leaves (leave (.interface pos elements')) fun t =>
        SameStructs (TypeExpr.interface pos elements).nodes t.nodes :=
  .bind (.lift (sharing_plain elements)) fun _ plain => .pure fun _ kept =>
    .pure (.node rfl (kept.mergeMarked plain))

theorem onSig_structs (s : Signature) : Leaves ((visitor opts comments).sig s) fun leave =>
    ∀ params results, s.params.Keeps params → Option.Rel FieldList.Keeps s.results results →
      Leaves (leave ⟨params, results⟩) fun s' => SameStructs s.nodes s'.nodes := by
  refine .bind (.lift (sharing_plain s.params)) fun _ ofParams => ?_
  refine .bind (.lift (sharingOpt_plain s.results)) fun _ ofResults => ?_
  refine .pure fun _ _ params results => .pure ?_
  obtain ⟨_, _⟩ := s
  exact .node rfl ((params.mergeMarked ofParams).append (.mergeMarkedOpt results ofResults))

theorem onFunc_structs (f : FuncDecl) : Leaves ((visitor opts comments).func f) fun leave =>
    ∀ f' : FuncDecl, Option.Rel FieldList.Keeps f.receiver f'.receiver →
      Option.Rel FieldList.Keeps f.typeParams f'.typeParams →
      SameStructs f.sig.nodes f'.sig.nodes →
      SameStructs ((f.body.map (·.nodes)).getD []) ((f'.body.map (·.nodes)).getD []) →
        Leaves (leave f') fun f'' => SameStructs f.nodes f''.nodes := by
  refine .bind (.lift (sharingOpt_plain f.receiver)) fun _ ofReceiver => ?_
  refine .bind (.lift (sharingOpt_plain f.typeParams)) fun _ ofTypeParams => ?_
  refine .pure fun f' receiver typeParams sig body => .pure (.node rfl ?_)
  exact (((SameStructs.mergeMarkedOpt receiver ofReceiver).append
    (.mergeMarkedOpt typeParams ofTypeParams)).append sig).append body

/-- A type that is a plain name is not changed. -/
theorem Leaves.andPlain {t : TypeExpr}
    (h : Leaves (t.visit (visitor opts comments)) fun t' => SameStructs t.nodes t'.nodes) :
    Leaves (t.visit (visitor opts comments)) fun t' => SameStructs t.nodes t'.nodes ∧
      (t.isPlainName = true → t'.isPlainName = true) := by
  by_cases plain : t.isPlainName = true
  · rw [visit_plainName plain]
    exact .pure ⟨rfl, id⟩
  · exact h.mono fun _ same => ⟨same, fun h => absurd h plain⟩

end Tidy

/-! ### The visit -/

section Visit

open Tidy

variable {opts : Options} {comments : List CommentGroup}

mutual

theorem Expr.visit_structs : ∀ e : Expr,
    Leaves (e.visit (visitor opts comments)) fun e' => SameStructs e.nodes e'.nodes
  | .ident _ => .bind (onExpr_structs _) fun _ done => done _ rfl
  | .literal _ => .bind (onExpr_structs _) fun _ done => done _ rfl
  | .func _ sig body => .bind (onExpr_structs _) fun _ done =>
    .bind sig.visit_structs fun _ ofSig => .bind (body.visit_structs .body) fun _ ofBody =>
      done _ (.node rfl (ofSig.append ofBody))
  | .composite type _ elements _ => .bind (onExpr_structs _) fun _ done =>
    .bind (TypeExpr.visitOpt_structs type) fun _ ofType =>
      .bind (Expr.visitAll_structs elements) fun _ ofElements =>
        done _ (.node rfl (ofType.append ofElements))
  | .paren _ inner _ => .bind (onExpr_structs _) fun _ done =>
    .bind inner.visit_structs fun _ same => done _ (.node rfl same)
  | .selector operand _ _ => .bind (onExpr_structs _) fun _ done =>
    .bind operand.visit_structs fun _ same => done _ (.node rfl same)
  | .index operand _ indices _ => .bind (onExpr_structs _) fun _ done =>
    .bind operand.visit_structs fun _ ofOperand =>
      .bind (Expr.visitAll_structs indices) fun _ ofIndices =>
        done _ (.node rfl (ofOperand.append ofIndices))
  | .slice operand _ lo hi max _ _ => .bind (onExpr_structs _) fun _ done =>
    .bind operand.visit_structs fun _ ofOperand => .bind (Expr.visitOpt_structs lo) fun _ ofLo =>
      .bind (Expr.visitOpt_structs hi) fun _ ofHi => .bind (Expr.visitOpt_structs max) fun _ ofMax =>
        done _ (.node rfl (((ofOperand.append ofLo).append ofHi).append ofMax))
  | .assertion operand _ _ type _ => .bind (onExpr_structs _) fun _ done =>
    .bind operand.visit_structs fun _ ofOperand =>
      .bind (TypeExpr.visitOpt_structs type) fun _ ofType =>
        done _ (.node rfl (ofOperand.append ofType))
  | .call fn _ args _ _ => .bind (onExpr_structs _) fun _ done =>
    .bind fn.visit_structs fun _ ofFn => .bind (Expr.visitAll_structs args) fun _ ofArgs =>
      done _ (.node rfl (ofFn.append ofArgs))
  | .unary _ _ operand => .bind (onExpr_structs _) fun _ done =>
    .bind operand.visit_structs fun _ same => done _ (.node rfl same)
  | .binary left _ _ right => .bind (onExpr_structs _) fun _ done =>
    .bind left.visit_structs fun _ ofLeft => .bind right.visit_structs fun _ ofRight =>
      done _ (.node rfl (ofLeft.append ofRight))
  | .keyValue key _ value => .bind (onExpr_structs _) fun _ done =>
    .bind key.visit_structs fun _ ofKey => .bind value.visit_structs fun _ ofValue =>
      done _ (.node rfl (ofKey.append ofValue))
  | .type t => .bind (onExpr_structs _) fun _ done =>
    .bind t.visit_structs fun _ same => done _ (.node rfl same)

theorem Expr.visitOpt_structs : ∀ o : Option Expr,
    Leaves (Expr.visitOpt (visitor opts comments) o) fun o' =>
      SameStructs (Expr.nodesOpt o) (Expr.nodesOpt o')
  | none => .pure rfl
  | some e => .bind e.visit_structs fun _ same => .pure same

theorem Expr.visitAll_structs : ∀ es : List Expr,
    Leaves (Expr.visitAll (visitor opts comments) es) fun es' =>
      SameStructs (Expr.nodesAll es) (Expr.nodesAll es')
  | [] => .pure rfl
  | e :: es => .bind e.visit_structs fun _ here =>
    .bind (Expr.visitAll_structs es) fun _ behind => .pure (here.append behind)

theorem TypeExpr.visit_structs : ∀ t : TypeExpr,
    Leaves (t.visit (visitor opts comments)) fun t' => SameStructs t.nodes t'.nodes
  | .named _ _ => .pure_bind (.pure rfl)
  | .generic _ _ _ args _ => .pure_bind (.bind (TypeExpr.visitAll_structs args) fun _ same =>
    .pure (.node rfl same))
  | .pointer _ elem => .pure_bind (.bind elem.visit_structs fun _ same => .pure (.node rfl same))
  | .array _ len _ elem => .pure_bind (.bind len.visit_structs fun _ ofLen =>
    .bind elem.visit_structs fun _ ofElem => .pure (.node rfl (ofLen.append ofElem)))
  | .countedArray _ _ _ elem => .pure_bind (.bind elem.visit_structs fun _ same =>
    .pure (.node rfl same))
  | .slice _ _ elem => .pure_bind (.bind elem.visit_structs fun _ same => .pure (.node rfl same))
  | .map _ _ key _ value => .pure_bind (.bind key.visit_structs fun _ ofKey =>
    .bind value.visit_structs fun _ ofValue => .pure (.node rfl (ofKey.append ofValue)))
  | .chan _ _ elem => .pure_bind (.bind elem.visit_structs fun _ same => .pure (.node rfl same))
  | .struct _ fields => .pure_bind (.bind fields.visit_keeps fun _ kept =>
    .pure (.node (congrArg some kept.frames) kept.structs))
  | .interface _ elements => .bind (onInterface_structs _ elements) fun _ done =>
    .bind elements.visit_keeps fun _ kept => done _ kept
  | .func _ sig => .pure_bind (.bind sig.visit_structs fun _ same => .pure (.node rfl same))
  | .paren _ inner _ => .pure_bind (.bind inner.visit_structs fun _ same => .pure (.node rfl same))
  | .variadic _ elem => .pure_bind (.bind elem.visit_structs fun _ same => .pure (.node rfl same))
  | .union terms => .pure_bind (.bind (TypeExpr.visitAll_structs terms) fun _ same =>
    .pure (.node rfl same))
  | .tilde _ inner => .pure_bind (.bind inner.visit_structs fun _ same => .pure (.node rfl same))

theorem TypeExpr.visitOpt_structs : ∀ o : Option TypeExpr,
    Leaves (TypeExpr.visitOpt (visitor opts comments) o) fun o' =>
      SameStructs (TypeExpr.nodesOpt o) (TypeExpr.nodesOpt o')
  | none => .pure rfl
  | some t => .bind t.visit_structs fun _ same => .pure same

theorem TypeExpr.visitAll_structs : ∀ ts : List TypeExpr,
    Leaves (TypeExpr.visitAll (visitor opts comments) ts) fun ts' =>
      SameStructs (TypeExpr.nodesAll ts) (TypeExpr.nodesAll ts')
  | [] => .pure rfl
  | t :: ts => .bind t.visit_structs fun _ here =>
    .bind (TypeExpr.visitAll_structs ts) fun _ behind => .pure (here.append behind)

theorem Field.visit_keeps : ∀ f : Field, Leaves (f.visit (visitor opts comments)) f.Keeps
  | ⟨_, _, type, _, _⟩ => .bind (Leaves.andPlain type.visit_structs) fun _ ⟨same, plain⟩ =>
    .pure ⟨rfl, plain, .node rfl same⟩

theorem Field.visitAll_keeps : ∀ fs : List Field,
    Leaves (Field.visitAll (visitor opts comments) fs) (List.Forall₂ Field.Keeps fs)
  | [] => .pure .nil
  | f :: fs => .bind f.visit_keeps fun _ here =>
    .bind (Field.visitAll_keeps fs) fun _ behind => .pure (.cons here behind)

theorem FieldList.visit_keeps : ∀ l : FieldList, Leaves (l.visit (visitor opts comments)) l.Keeps
  | ⟨_, fields⟩ => .bind (Field.visitAll_keeps fields) fun _ kept => .pure kept

theorem FieldList.visitOpt_keeps : ∀ o : Option FieldList,
    Leaves (FieldList.visitOpt (visitor opts comments) o) (Option.Rel FieldList.Keeps o)
  | none => .pure .none
  | some l => .bind l.visit_keeps fun _ kept => .pure (.some kept)

theorem Signature.visit_structs : ∀ s : Signature,
    Leaves (s.visit (visitor opts comments)) fun s' => SameStructs s.nodes s'.nodes
  | ⟨params, results⟩ => .bind (onSig_structs ⟨params, results⟩) fun _ done =>
    .bind params.visit_keeps fun _ ofParams =>
      .bind (FieldList.visitOpt_keeps results) fun _ ofResults => done _ _ ofParams ofResults

theorem Block.visit_structs (role : BlockRole) : ∀ b : Block,
    Leaves (b.visit (visitor opts comments) role) fun b' => SameStructs b.nodes b'.nodes
  | ⟨_, stmts, _⟩ => .bind (onBlock_structs role _) fun _ done =>
    .bind (Stmt.visitAll_structs stmts) fun _ same => done _ same

theorem Stmt.visit_structs : ∀ s : Stmt,
    Leaves (s.visit (visitor opts comments)) fun s' => SameStructs s.nodes s'.nodes
  | .decl d => .bind (onStmt_structs _) fun _ done =>
    .bind d.visit_structs fun _ same => done _ (.node rfl same)
  | .empty _ => .bind (onStmt_structs _) fun _ done => done _ rfl
  | .labeled _ _ stmt => .bind (onStmt_structs _) fun _ done =>
    .bind stmt.visit_structs fun _ same => done _ (.node rfl same)
  | .expr e => .bind (onStmt_structs _) fun _ done =>
    .bind e.visit_structs fun _ same => done _ (.node rfl same)
  | .send chan _ value => .bind (onStmt_structs _) fun _ done =>
    .bind chan.visit_structs fun _ ofChan => .bind value.visit_structs fun _ ofValue =>
      done _ (.node rfl (ofChan.append ofValue))
  | .incDec operand _ _ => .bind (onStmt_structs _) fun _ done =>
    .bind operand.visit_structs fun _ same => done _ (.node rfl same)
  | .assign lhs _ _ rhs => .bind (onStmt_structs _) fun _ done =>
    .bind (Expr.visitAll_structs lhs) fun _ ofLhs => .bind (Expr.visitAll_structs rhs) fun _ ofRhs =>
      done _ (.node rfl (ofLhs.append ofRhs))
  | .go _ call => .bind (onStmt_structs _) fun _ done =>
    .bind call.visit_structs fun _ same => done _ (.node rfl same)
  | .defer _ call => .bind (onStmt_structs _) fun _ done =>
    .bind call.visit_structs fun _ same => done _ (.node rfl same)
  | .returns _ results => .bind (onStmt_structs _) fun _ done =>
    .bind (Expr.visitAll_structs results) fun _ same => done _ (.node rfl same)
  | .branch _ _ _ => .bind (onStmt_structs _) fun _ done => done _ rfl
  | .block b => .bind (onStmt_structs _) fun _ done =>
    .bind (b.visit_structs .inner) fun _ same => done _ (.node rfl same)
  | .ifElse _ init cond body orElse => .bind (onStmt_structs _) fun _ done =>
    .bind (Stmt.visitOpt_structs init) fun _ ofInit => .bind cond.visit_structs fun _ ofCond =>
      .bind (body.visit_structs .inner) fun _ ofBody =>
        .bind (Stmt.visitOpt_structs orElse) fun _ ofElse =>
          done _ (.node rfl (((ofInit.append ofCond).append ofBody).append ofElse))
  | .caseClause _ values _ body => .bind (onStmt_structs _) fun _ done =>
    .bind (Expr.visitAll_structs values) fun _ ofValues =>
      .bind (Stmt.visitAll_structs body) fun _ ofBody =>
        done _ (.node rfl (ofValues.append ofBody))
  | .switch _ init tag body => .bind (onStmt_structs _) fun _ done =>
    .bind (Stmt.visitOpt_structs init) fun _ ofInit =>
      .bind (Expr.visitOpt_structs tag) fun _ ofTag =>
        .bind (body.visit_structs .inner) fun _ ofBody =>
          done _ (.node rfl ((ofInit.append ofTag).append ofBody))
  | .typeSwitch _ init guarded body => .bind (onStmt_structs _) fun _ done =>
    .bind (Stmt.visitOpt_structs init) fun _ ofInit =>
      .bind guarded.visit_structs fun _ ofGuarded =>
        .bind (body.visit_structs .inner) fun _ ofBody =>
          done _ (.node rfl ((ofInit.append ofGuarded).append ofBody))
  | .commClause _ comm _ body => .bind (onStmt_structs _) fun _ done =>
    .bind (Stmt.visitOpt_structs comm) fun _ ofComm =>
      .bind (Stmt.visitAll_structs body) fun _ ofBody => done _ (.node rfl (ofComm.append ofBody))
  | .select _ body => .bind (onStmt_structs _) fun _ done =>
    .bind (body.visit_structs .inner) fun _ same => done _ (.node rfl same)
  | .forLoop _ init cond post body => .bind (onStmt_structs _) fun _ done =>
    .bind (Stmt.visitOpt_structs init) fun _ ofInit =>
      .bind (Expr.visitOpt_structs cond) fun _ ofCond =>
        .bind (Stmt.visitOpt_structs post) fun _ ofPost =>
          .bind (body.visit_structs .inner) fun _ ofBody =>
            done _ (.node rfl (((ofInit.append ofCond).append ofPost).append ofBody))
  | .range _ key value _ _ operand body => .bind (onStmt_structs _) fun _ done =>
    .bind (Expr.visitOpt_structs key) fun _ ofKey =>
      .bind (Expr.visitOpt_structs value) fun _ ofValue =>
        .bind operand.visit_structs fun _ ofOperand =>
          .bind (body.visit_structs .inner) fun _ ofBody =>
            done _ (.node rfl (((ofKey.append ofValue).append ofOperand).append ofBody))

theorem Stmt.visitOpt_structs : ∀ o : Option Stmt,
    Leaves (Stmt.visitOpt (visitor opts comments) o) fun o' =>
      SameStructs (Stmt.nodesOpt o) (Stmt.nodesOpt o')
  | none => .pure rfl
  | some s => .bind s.visit_structs fun _ same => .pure same

theorem Stmt.visitAll_structs : ∀ ss : List Stmt,
    Leaves (Stmt.visitAll (visitor opts comments) ss) fun ss' =>
      SameStructs (Stmt.nodesAll ss) (Stmt.nodesAll ss')
  | [] => .pure rfl
  | s :: ss => .bind s.visit_structs fun _ here =>
    .bind (Stmt.visitAll_structs ss) fun _ behind => .pure (here.append behind)

theorem GenDecl.visit_structs : ∀ d : GenDecl,
    Leaves (d.visit (visitor opts comments)) fun d' => SameStructs d.nodes d'.nodes
  | ⟨_, _, _, _, specs, _⟩ => .bind (onDecl_structs _) fun _ done =>
    .bind (Spec.visitAll_structs specs) fun _ same => done _ (.node rfl same)

theorem Spec.visit_structs : ∀ s : Spec,
    Leaves (s.visit (visitor opts comments)) fun s' => SameStructs s.nodes s'.nodes
  | .importSpec _ => .pure rfl
  | .valueSpec _ _ type _ values _ => .bind (TypeExpr.visitOpt_structs type) fun _ ofType =>
    .bind (Expr.visitAll_structs values) fun _ ofValues => .pure (ofType.append ofValues)
  | .typeSpec _ _ typeParams _ type _ =>
    .bind (FieldList.visitOpt_keeps typeParams) fun _ ofParams =>
      .bind type.visit_structs fun _ ofType => .pure (SameStructs.append (.opt ofParams) ofType)

theorem Spec.visitAll_structs : ∀ ss : List Spec,
    Leaves (Spec.visitAll (visitor opts comments) ss) fun ss' =>
      SameStructs (Spec.nodesAll ss) (Spec.nodesAll ss')
  | [] => .pure rfl
  | s :: ss => .bind s.visit_structs fun _ here =>
    .bind (Spec.visitAll_structs ss) fun _ behind => .pure (here.append behind)

end

theorem Block.visitBody_structs (o : Option Block) :
    Leaves (Block.visitBody (visitor opts comments) o) fun o' =>
      SameStructs ((o.map (·.nodes)).getD []) ((o'.map (·.nodes)).getD []) := by
  cases o with
  | none => exact .pure rfl
  | some body => exact .bind (body.visit_structs .body) fun _ same => .pure same

theorem Decl.visit_structs (d : Decl) :
    Leaves (d.visit (visitor opts comments)) fun d' => SameStructs d.nodes d'.nodes := by
  cases d with
  | gen d => exact .bind d.visit_structs fun _ same => .pure same
  | func f =>
    refine .bind (.bind (onFunc_structs f) fun _ done => ?_) fun _ same => .pure same
    exact .bind (FieldList.visitOpt_keeps f.receiver) fun _ ofReceiver =>
      .bind (FieldList.visitOpt_keeps f.typeParams) fun _ ofTypeParams =>
        .bind f.sig.visit_structs fun _ ofSig =>
          .bind (Block.visitBody_structs f.body) fun _ ofBody =>
            done _ ofReceiver ofTypeParams ofSig ofBody

end Visit

/-! ### Whole files -/

/-- The structs in a part of a file. -/
def Part.structs : Part → List (List Field.Frame)
  | .spec _ s => Node.structs s.nodes
  | .func f => Node.structs f.nodes

theorem GenDecl.structs_nodes (d : GenDecl) :
    Node.structs d.nodes = Node.structs (Spec.nodesAll d.specs) := by
  cases d
  rfl

theorem Decl.structs_nodes (d : Decl) : Node.structs d.nodes = d.parts.flatMap Part.structs := by
  cases d with
  | func f => exact (List.append_nil _).symm
  | gen d =>
    change Node.structs d.nodes = (d.specs.map (Part.spec d.kind)).flatMap Part.structs
    rw [d.structs_nodes]
    induction d.specs with
    | nil => rfl
    | cons s ss ih =>
      rw [List.map_cons, List.flatMap_cons, ← ih]
      exact List.filterMap_append

/-- Declarations with the same parts have the same structs. -/
theorem SameStructs.of_parts {ds ds' : List Decl}
    (same : ds'.flatMap Decl.parts = ds.flatMap Decl.parts) :
    SameStructs (ds.flatMap Decl.nodes) (ds'.flatMap Decl.nodes) := by
  have ofParts (ds : List Decl) : Node.structs (ds.flatMap Decl.nodes) =
      (ds.flatMap Decl.parts).flatMap Part.structs := by
    simp only [Node.structs, List.filterMap_flatMap, List.flatMap_assoc, ← Decl.structs_nodes]
  rw [SameStructs, ofParts, ofParts, same]

theorem SameStructs.of_forall₂ {α : Type} (now : α → Decl) {as : List α} {ds : List Decl}
    (h : List.Forall₂ (fun a d => (∀ p ∈ (now a).parts, p.WellKinded) →
      SameStructs (now a).nodes d.nodes) as ds)
    (kinded : ∀ p ∈ (as.map now).flatMap Decl.parts, p.WellKinded) :
    SameStructs ((as.map now).flatMap Decl.nodes) (ds.flatMap Decl.nodes) := by
  induction h with
  | nil => exact .refl _
  | cons here _ ih =>
    rw [List.map_cons, List.flatMap_cons] at kinded
    obtain ⟨first, behind⟩ := List.forall_mem_append.mp kinded
    rw [List.map_cons, List.flatMap_cons, List.flatMap_cons]
    exact (here first).append (ih behind)

/-- Imports have no structs. -/
theorem Spec.structs_imports {ss : List Spec} (imports : ∀ s ∈ ss, s.IsImport) :
    Node.structs (Spec.nodesAll ss) = [] := by
  induction ss with
  | nil => rfl
  | cons s ss ih =>
    obtain ⟨⟨_, rfl⟩, behind⟩ := List.forall_mem_cons.mp imports
    exact ih behind

namespace Tidy

variable {n : Nat} {opts : Options} {comments : List CommentGroup} {d : Decl}

theorem Gathers.structs {modulePath : Option String} {d' : Decl}
    (kinded : d.OfImports fun d => ∀ s ∈ d.specs, s.IsImport)
    (h : Gathers n modulePath d d') : SameStructs d.nodes d'.nodes := by
  cases h with
  | same => exact .refl _
  | @group d specs first rest _ _ _ imports gathered =>
    have all := kinded imports
    have all' := gathered.forall_mem (fun _ pos isImport => isImport.restamp pos) all
    change Node.structs (GenDecl.nodes _) = Node.structs d.nodes
    rw [GenDecl.structs_nodes, GenDecl.structs_nodes, Spec.structs_imports all,
      Spec.structs_imports all']

theorem gatherImports_structs (h : d.Within n) :
    (gatherImports opts d).Safe n fun d' => d'.Within n ∧ Keeps d.parts d'.parts ∧
      ((∀ p ∈ d.parts, p.WellKinded) → SameStructs d.nodes d'.nodes) :=
  ((gatherImports_safe h).and_gives fun _ cover _ _ run kinded =>
    have imports := Decl.wellKinded_parts.mp kinded
    Gathers.structs imports (gatherImports_gives h cover imports _ _ run)).mono
      fun _ ⟨⟨within, keeps⟩, same⟩ => ⟨within, keeps, same⟩

theorem flatten_structs (h : d.Within n) :
    (Tidy.flatten comments d).Safe n fun d' => d'.Within n ∧ Keeps d.parts d'.parts ∧
      ((∀ p ∈ d.parts, p.WellKinded) → SameStructs d.nodes d'.nodes) := by
  have same : ∀ t, Gives (Tidy.flatten comments d) t fun d' _ => SameStructs d.nodes d'.nodes := by
    intro t
    cases d with
    | func f => exact .pure (.refl _)
    | gen d =>
      refine .bind GenDecl.flatten_gives ?_
      rintro _ t' (rfl | ⟨kwPos, rfl, -⟩)
      · exact .pure (.refl _)
      · exact .pure ((GenDecl.structs_nodes _).trans d.structs_nodes.symm)
  exact ((flatten_safe h).and_gives fun t _ => same t).mono
    fun _ ⟨⟨within, keeps⟩, same⟩ => ⟨within, keeps, fun _ => same⟩

theorem nodes_structs (h : d.Within n) :
    (nodes opts comments d).Safe n fun d' => SameStructs d.nodes d'.nodes :=
  ((nodes_safe h).and_gives fun t _ => .bind (d.visit_structs 0 t) fun _ _ same =>
    .pure same).mono fun _ => And.right

theorem finish_structs {m : Merged} (h : m.decl.Within n) :
    (finish opts comments m).Safe n fun d' =>
      (∀ p ∈ m.decl.parts, p.WellKinded) → SameStructs m.decl.nodes d'.nodes := by
  unfold finish
  split
  · exact .bind (gatherImports_structs h) fun d ⟨within, _, same⟩ =>
      (nodes_structs within).mono fun _ same' kinded => (same kinded).trans same'
  · refine .bind (.pure rfl) ?_
    rintro _ rfl
    exact (nodes_structs h).mono fun _ same _ => same

end Tidy

namespace SourceFile

variable {src : String} {f : SourceFile} {opts : Options}

/-- Tidying keeps the structs of a file. -/
theorem tidy_structs (opts : Options) (read : SourceFile.parse src = .ok f) :
    Yields (SourceFile.tidy opts) f fun _ f' => f'.structs = f.structs := by
  obtain ⟨cover, kinds⟩ := over_of_parse read
  refine (tidy_stages opts cover (fun _ => Tidy.gatherImports_structs)
    (fun _ => Tidy.flatten_structs) fun _ => Tidy.finish_structs).mono ?_
  rintro - f' ⟨lines, gathered, flat, gathers, flattens, finishes⟩
  have kinded : ∀ p ∈ (f.decls.map id).flatMap Decl.parts, p.WellKinded := by
    rw [List.map_id]
    exact kinds.parts
  have kinded₁ := (Keeps.of_forall₂ (gathers.imp fun _ _ h => h.1)).wellKinded kinded
  rw [← List.map_id gathered] at kinded₁
  have kinded₂ := (Keeps.of_forall₂ (flattens.imp fun _ _ h => h.1)).wellKinded kinded₁
  have first := SameStructs.of_forall₂ id (gathers.imp fun _ _ h => h.2) kinded
  have second := SameStructs.of_forall₂ id (flattens.imp fun _ _ h => h.2) kinded₁
  rw [List.map_id] at first second
  rw [← Groups.parts_merge] at kinded₂
  have last := SameStructs.of_forall₂ Merged.decl finishes kinded₂
  exact first.trans (second.trans (.trans (.of_parts (Groups.parts_merge flat)) last))

/-- What merging does to signatures, by the extra rules. A list stands for the same names and types
as before; what is merged are runs of fields without doc, tag and comment, each on one line; and a
second merge finds nothing. Tidying merges the lists of functions and the elements of interfaces,
and never the fields of a struct. -/
theorem merging_keeps_signatures (read : SourceFile.parse src = .ok f) (extra : opts.extra = true)
    (lines : LineTable) (l : FieldList) :
    List.Forall₂ Field.SameParam l.params (l.merge lines).params ∧
    (∃ runs : List Field.Run, l.fields = runs.flatMap (·.fields) ∧
      l.merge lines = { l with fields := runs.map (·.field) } ∧
      ∀ r ∈ runs, r.merged ≠ [] → ∀ g ∈ r.fields,
        g.doc = none ∧ g.tag = none ∧ g.comment = none ∧
          lines.line g.pos = lines.line r.kept.pos) ∧
    (l.merge lines).merge lines = l.merge lines ∧
    (∀ comments, Tidy.MergesFields opts comments) ∧
    ∃ f', (SourceFile.tidy opts).run f = .ok () f' ∧ f'.structs = f.structs := by
  refine ⟨l.merge_params lines, ⟨l.runs lines, (l.flatMap_runs lines).symm, l.merge_eq lines, ?_⟩,
    FieldList.merge_of_apart (l.isChain_merge lines), fun _ => Tidy.mergesFields extra, ?_⟩
  · intro r mem more g inRun
    obtain ⟨bare, line⟩ := (l.runs_fit lines r mem).forall_fields more g inRun
    obtain ⟨doc, comment, -, tag⟩ := Field.isBare_iff.mp bare
    exact ⟨doc, tag, comment, line⟩
  · obtain ⟨_, f', run, same⟩ := tidy_structs opts read
    exact ⟨f', run, same⟩

/-- The parameter lists of a file. -/
def paramLists (f : SourceFile) : List FieldList := f.nodes.filterMap Node.params?

/-- Two parameters that are merged, and two fields of a struct that are not. -/
theorem merging_keeps_signatures_of_two :
    ∃ f f' l, SourceFile.parse
        "package p\ntype T struct\x7b a int; b int \x7d\nfunc f(a int, b int) \x7b\x7d\n" = .ok f ∧
      (SourceFile.tidy ⟨none, true, none, false, none⟩).run f = .ok () f' ∧
      f.structs.map (·.length) = [2] ∧ f'.structs = f.structs ∧
      f.paramLists = [l] ∧ l.fields.length = 2 ∧ (l.merge f.lines).fields.length = 1 ∧
      List.Forall₂ Field.SameParam l.params (l.merge f.lines).params ∧
      (l.merge f.lines).merge f.lines = l.merge f.lines := by
  generalize source : SourceFile.parse _ = parsed
  have found : parsed.toOption.map (fun f => (f.structs.map (·.length), f.paramLists.map fun l =>
      (l.fields.length, (l.merge f.lines).fields.length))) = some ([2], [(2, 1)]) := by
    rw [← source]
    decide +kernel
  cases parsed with
  | error e => nomatch found
  | ok f =>
    obtain ⟨structs, lists⟩ := Prod.mk.inj (Option.some.inj found)
    obtain ⟨l, only, lengths⟩ := List.map_eq_singleton_iff.mp lists
    obtain ⟨two, one⟩ := Prod.mk.inj lengths
    have extra : (Options.mk none true none false none).extra = true := rfl
    obtain ⟨params, -, again, -, f', run, same⟩ :=
      merging_keeps_signatures source extra f.lines l
    exact ⟨f, f', l, rfl, run, structs, same, only, two, one, params, again⟩

end SourceFile

end GoLayout
