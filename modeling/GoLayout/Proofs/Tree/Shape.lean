import GoLayout.Tree.Copy

/-!
The shape of a tree: what is left of it without the places of its tokens, its comments, and its
optional tokens, except for the dots that spread the last argument of a call. Every token of a
shape stands at offset zero. A copy that fills in no names has the shape of the original.
-/

namespace GoLayout

/-- Where the tokens of a shape stand. -/
def Span.zero : Span := .point 0

def Ident.shape (i : Ident) : Ident := ⟨i.text, .zero⟩

def Literal.shape (l : Literal) : Literal := ⟨l.kind, l.text, .zero⟩

def Qualifier.shape (q : Qualifier) : Qualifier := ⟨q.package.shape, .zero⟩

def ChanDir.shape : ChanDir → ChanDir
  | .both => .both
  | .send _ => .send .zero
  | .recv _ => .recv .zero

def ImportName.shape : ImportName → ImportName
  | .dot _ => .dot .zero
  | .name id => .name id.shape

def ImportSpec.shape (s : ImportSpec) : ImportSpec :=
  ⟨none, s.name.map (·.shape), s.path.shape, none⟩

mutual

def Expr.shape : Expr → Expr
  | .ident name => .ident name.shape
  | .literal lit => .literal lit.shape
  | .func _ sig body => .func .zero sig.shape body.shape
  | .composite type _ elements _ =>
    .composite (TypeExpr.shapeOpt type) .zero (Expr.shapeAll elements) .zero
  | .paren _ inner _ => .paren .zero inner.shape .zero
  | .selector operand _ member => .selector operand.shape .zero member.shape
  | .index operand _ indices _ => .index operand.shape .zero (Expr.shapeAll indices) .zero
  | .slice operand _ lo hi max full _ =>
    .slice operand.shape .zero (Expr.shapeOpt lo) (Expr.shapeOpt hi) (Expr.shapeOpt max) full .zero
  | .assertion operand _ _ type _ =>
    .assertion operand.shape .zero .zero (TypeExpr.shapeOpt type) .zero
  | .call fn _ args spread _ =>
    .call fn.shape .zero (Expr.shapeAll args) (spread.map fun _ => .zero) .zero
  | .unary op _ operand => .unary op .zero operand.shape
  | .binary left op _ right => .binary left.shape op .zero right.shape
  | .keyValue key _ value => .keyValue key.shape .zero value.shape
  | .type t => .type t.shape

def Expr.shapeOpt : Option Expr → Option Expr
  | none => none
  | some e => some e.shape

def Expr.shapeAll : List Expr → List Expr
  | [] => []
  | e :: es => e.shape :: Expr.shapeAll es

def TypeExpr.shape : TypeExpr → TypeExpr
  | .named qualifier name => .named (qualifier.map (·.shape)) name.shape
  | .generic qualifier name _ args _ =>
    .generic (qualifier.map (·.shape)) name.shape .zero (TypeExpr.shapeAll args) .zero
  | .pointer _ elem => .pointer .zero elem.shape
  | .array _ len _ elem => .array .zero len.shape .zero elem.shape
  | .countedArray _ _ _ elem => .countedArray .zero .zero .zero elem.shape
  | .slice _ _ elem => .slice .zero .zero elem.shape
  | .map _ _ key _ value => .map .zero .zero key.shape .zero value.shape
  | .chan dir _ elem => .chan dir.shape .zero elem.shape
  | .struct _ fields => .struct .zero fields.shape
  | .interface _ elements => .interface .zero elements.shape
  | .func _ sig => .func none sig.shape
  | .paren _ inner _ => .paren .zero inner.shape .zero
  | .variadic _ elem => .variadic .zero elem.shape
  | .union terms => .union (TypeExpr.shapeAll terms)
  | .tilde _ inner => .tilde .zero inner.shape

def TypeExpr.shapeOpt : Option TypeExpr → Option TypeExpr
  | none => none
  | some t => some t.shape

def TypeExpr.shapeAll : List TypeExpr → List TypeExpr
  | [] => []
  | t :: ts => t.shape :: TypeExpr.shapeAll ts

def Field.shape : Field → Field
  | ⟨_, names, type, tag, _⟩ =>
    ⟨none, names.map (·.shape), type.shape, tag.map (·.shape), none⟩

def Field.shapeAll : List Field → List Field
  | [] => []
  | f :: fs => f.shape :: Field.shapeAll fs

def FieldList.shape : FieldList → FieldList
  | ⟨_, fields⟩ => ⟨none, Field.shapeAll fields⟩

def FieldList.shapeOpt : Option FieldList → Option FieldList
  | none => none
  | some fields => some fields.shape

def Signature.shape : Signature → Signature
  | ⟨params, results⟩ => ⟨params.shape, FieldList.shapeOpt results⟩

def Block.shape : Block → Block
  | ⟨_, stmts, _⟩ => ⟨.zero, Stmt.shapeAll stmts, .zero⟩

def Stmt.shape : Stmt → Stmt
  | .decl d => .decl d.shape
  | .empty _ => .empty .zero
  | .labeled label _ stmt => .labeled label.shape .zero stmt.shape
  | .expr e => .expr e.shape
  | .send chan _ value => .send chan.shape .zero value.shape
  | .incDec operand op _ => .incDec operand.shape op .zero
  | .assign lhs op _ rhs => .assign (Expr.shapeAll lhs) op .zero (Expr.shapeAll rhs)
  | .go _ call => .go .zero call.shape
  | .defer _ call => .defer .zero call.shape
  | .returns _ results => .returns .zero (Expr.shapeAll results)
  | .branch kind _ label => .branch kind .zero (label.map (·.shape))
  | .block b => .block b.shape
  | .ifElse _ init cond body orElse =>
    .ifElse .zero (Stmt.shapeOpt init) cond.shape body.shape (Stmt.shapeOpt orElse)
  | .caseClause _ values _ body =>
    .caseClause .zero (Expr.shapeAll values) .zero (Stmt.shapeAll body)
  | .switch _ init tag body =>
    .switch .zero (Stmt.shapeOpt init) (Expr.shapeOpt tag) body.shape
  | .typeSwitch _ init guarded body =>
    .typeSwitch .zero (Stmt.shapeOpt init) guarded.shape body.shape
  | .commClause _ comm _ body =>
    .commClause .zero (Stmt.shapeOpt comm) .zero (Stmt.shapeAll body)
  | .select _ body => .select .zero body.shape
  | .forLoop _ init cond post body =>
    .forLoop .zero (Stmt.shapeOpt init) (Expr.shapeOpt cond) (Stmt.shapeOpt post) body.shape
  | .range _ key value op _ operand body =>
    .range .zero (Expr.shapeOpt key) (Expr.shapeOpt value) (op.map fun op => (op.1, .zero)) .zero
      operand.shape body.shape

def Stmt.shapeOpt : Option Stmt → Option Stmt
  | none => none
  | some s => some s.shape

def Stmt.shapeAll : List Stmt → List Stmt
  | [] => []
  | s :: ss => s.shape :: Stmt.shapeAll ss

def GenDecl.shape : GenDecl → GenDecl
  | ⟨_, _, kind, _, specs, _⟩ => ⟨none, .zero, kind, none, Spec.shapeAll specs, none⟩

def Spec.shape : Spec → Spec
  | .importSpec spec => .importSpec spec.shape
  | .valueSpec _ names type _ values _ =>
    .valueSpec none (names.map (·.shape)) (TypeExpr.shapeOpt type) none (Expr.shapeAll values) none
  | .typeSpec _ name typeParams _ type _ =>
    .typeSpec none name.shape (FieldList.shapeOpt typeParams) none type.shape none

def Spec.shapeAll : List Spec → List Spec
  | [] => []
  | s :: ss => s.shape :: Spec.shapeAll ss

end

/-! ### Shapes of copies -/

namespace Copying

variable (c : Copying)

@[simp] theorem shape_ident (i : Ident) : (c.ident i).shape = i.shape := rfl

@[simp] theorem shape_literal (l : Literal) : (c.literal l).shape = l.shape := rfl

@[simp] theorem shape_qualifier (q : Qualifier) : (c.qualifier q).shape = q.shape := rfl

@[simp] theorem shape_chanDir (dir : ChanDir) : (c.chanDir dir).shape = dir.shape := by
  cases dir <;> rfl

@[simp] theorem shape_importName (name : ImportName) : (c.importName name).shape = name.shape := by
  cases name <;> rfl

@[simp] theorem shape_importSpec (s : ImportSpec) : (c.importSpec s).shape = s.shape := by
  simp [importSpec, ImportSpec.shape, Function.comp_def]

end Copying

section Plain

-- The recursive theorems below share their hypothesis, though not each of them uses it.
set_option linter.unusedSectionVars false

variable {c : Copying} (plain : ∀ name, c.fill name = none)

include plain

mutual

theorem Expr.shape_copy : ∀ e : Expr, (e.copy c).shape = e.shape
  | .ident name => by simp [Expr.copy, Expr.shape, plain]
  | .literal _ => by simp [Expr.copy, Expr.shape]
  | .func _ sig body => by simp [Expr.copy, Expr.shape, sig.shape_copy, body.shape_copy]
  | .composite type _ elements _ => by
    simp [Expr.copy, Expr.shape, TypeExpr.shape_copyOpt type, Expr.shape_copyAll elements]
  | .paren _ inner _ => by simp [Expr.copy, Expr.shape, inner.shape_copy]
  | .selector operand _ _ => by simp [Expr.copy, Expr.shape, operand.shape_copy]
  | .index operand _ indices _ => by
    simp [Expr.copy, Expr.shape, operand.shape_copy, Expr.shape_copyAll indices]
  | .slice operand _ lo hi max _ _ => by
    simp [Expr.copy, Expr.shape, operand.shape_copy, Expr.shape_copyOpt lo,
      Expr.shape_copyOpt hi, Expr.shape_copyOpt max]
  | .assertion operand _ _ type _ => by
    simp [Expr.copy, Expr.shape, operand.shape_copy, TypeExpr.shape_copyOpt type]
  | .call fn _ args _ _ => by
    simp [Expr.copy, Expr.shape, fn.shape_copy, Expr.shape_copyAll args, Function.comp_def]
  | .unary _ _ operand => by simp [Expr.copy, Expr.shape, operand.shape_copy]
  | .binary left _ _ right => by
    simp [Expr.copy, Expr.shape, left.shape_copy, right.shape_copy]
  | .keyValue key _ value => by simp [Expr.copy, Expr.shape, key.shape_copy, value.shape_copy]
  | .type t => by simp [Expr.copy, Expr.shape, t.shape_copy]

theorem Expr.shape_copyOpt : ∀ o : Option Expr, Expr.shapeOpt (Expr.copyOpt c o) = Expr.shapeOpt o
  | none => rfl
  | some e => congrArg some e.shape_copy

theorem Expr.shape_copyAll : ∀ es : List Expr, Expr.shapeAll (Expr.copyAll c es) = Expr.shapeAll es
  | [] => rfl
  | e :: es => by
    rw [Expr.copyAll, Expr.shapeAll, e.shape_copy, Expr.shape_copyAll es, Expr.shapeAll]

theorem TypeExpr.shape_copy : ∀ t : TypeExpr, (t.copy c).shape = t.shape
  | .named _ _ => by simp [TypeExpr.copy, TypeExpr.shape, Function.comp_def]
  | .generic _ _ _ args _ => by
    simp [TypeExpr.copy, TypeExpr.shape, TypeExpr.shape_copyAll args, Function.comp_def]
  | .pointer _ elem => by simp [TypeExpr.copy, TypeExpr.shape, elem.shape_copy]
  | .array _ len _ elem => by
    simp [TypeExpr.copy, TypeExpr.shape, len.shape_copy, elem.shape_copy]
  | .countedArray _ _ _ elem => by simp [TypeExpr.copy, TypeExpr.shape, elem.shape_copy]
  | .slice _ _ elem => by simp [TypeExpr.copy, TypeExpr.shape, elem.shape_copy]
  | .map _ _ key _ value => by
    simp [TypeExpr.copy, TypeExpr.shape, key.shape_copy, value.shape_copy]
  | .chan _ _ elem => by simp [TypeExpr.copy, TypeExpr.shape, elem.shape_copy]
  | .struct _ fields => by simp [TypeExpr.copy, TypeExpr.shape, fields.shape_copy]
  | .interface _ elements => by simp [TypeExpr.copy, TypeExpr.shape, elements.shape_copy]
  | .func _ sig => by simp [TypeExpr.copy, TypeExpr.shape, sig.shape_copy]
  | .paren _ inner _ => by simp [TypeExpr.copy, TypeExpr.shape, inner.shape_copy]
  | .variadic _ elem => by simp [TypeExpr.copy, TypeExpr.shape, elem.shape_copy]
  | .union terms => by simp [TypeExpr.copy, TypeExpr.shape, TypeExpr.shape_copyAll terms]
  | .tilde _ inner => by simp [TypeExpr.copy, TypeExpr.shape, inner.shape_copy]

theorem TypeExpr.shape_copyOpt :
    ∀ o : Option TypeExpr, TypeExpr.shapeOpt (TypeExpr.copyOpt c o) = TypeExpr.shapeOpt o
  | none => rfl
  | some t => congrArg some t.shape_copy

theorem TypeExpr.shape_copyAll :
    ∀ ts : List TypeExpr, TypeExpr.shapeAll (TypeExpr.copyAll c ts) = TypeExpr.shapeAll ts
  | [] => rfl
  | t :: ts => by
    rw [TypeExpr.copyAll, TypeExpr.shapeAll, t.shape_copy, TypeExpr.shape_copyAll ts,
      TypeExpr.shapeAll]

theorem Field.shape_copy : ∀ f : Field, (f.copy c).shape = f.shape
  | ⟨_, _, type, _, _⟩ => by simp [Field.copy, Field.shape, type.shape_copy, Function.comp_def]

theorem Field.shape_copyAll :
    ∀ fs : List Field, Field.shapeAll (Field.copyAll c fs) = Field.shapeAll fs
  | [] => rfl
  | f :: fs => by
    rw [Field.copyAll, Field.shapeAll, f.shape_copy, Field.shape_copyAll fs, Field.shapeAll]

theorem FieldList.shape_copy : ∀ l : FieldList, (l.copy c).shape = l.shape
  | ⟨_, fields⟩ => by simp [FieldList.copy, FieldList.shape, Field.shape_copyAll fields]

theorem FieldList.shape_copyOpt :
    ∀ o : Option FieldList, FieldList.shapeOpt (FieldList.copyOpt c o) = FieldList.shapeOpt o
  | none => rfl
  | some l => congrArg some l.shape_copy

theorem Signature.shape_copy : ∀ s : Signature, (s.copy c).shape = s.shape
  | ⟨params, results⟩ => by
    simp [Signature.copy, Signature.shape, params.shape_copy, FieldList.shape_copyOpt results]

theorem Block.shape_copy : ∀ b : Block, (b.copy c).shape = b.shape
  | ⟨_, stmts, _⟩ => by simp [Block.copy, Block.shape, Stmt.shape_copyAll stmts]

theorem Stmt.shape_copy : ∀ s : Stmt, (s.copy c).shape = s.shape
  | .decl d => by simp [Stmt.copy, Stmt.shape, d.shape_copy]
  | .empty _ => by simp [Stmt.copy, Stmt.shape]
  | .labeled _ _ stmt => by simp [Stmt.copy, Stmt.shape, stmt.shape_copy]
  | .expr e => by simp [Stmt.copy, Stmt.shape, e.shape_copy]
  | .send chan _ value => by simp [Stmt.copy, Stmt.shape, chan.shape_copy, value.shape_copy]
  | .incDec operand _ _ => by simp [Stmt.copy, Stmt.shape, operand.shape_copy]
  | .assign lhs _ _ rhs => by
    simp [Stmt.copy, Stmt.shape, Expr.shape_copyAll lhs, Expr.shape_copyAll rhs]
  | .go _ call => by simp [Stmt.copy, Stmt.shape, call.shape_copy]
  | .defer _ call => by simp [Stmt.copy, Stmt.shape, call.shape_copy]
  | .returns _ results => by simp [Stmt.copy, Stmt.shape, Expr.shape_copyAll results]
  | .branch _ _ _ => by simp [Stmt.copy, Stmt.shape, Function.comp_def]
  | .block b => by simp [Stmt.copy, Stmt.shape, b.shape_copy]
  | .ifElse _ init cond body orElse => by
    simp [Stmt.copy, Stmt.shape, Stmt.shape_copyOpt init, cond.shape_copy, body.shape_copy,
      Stmt.shape_copyOpt orElse]
  | .caseClause _ values _ body => by
    simp [Stmt.copy, Stmt.shape, Expr.shape_copyAll values, Stmt.shape_copyAll body]
  | .switch _ init tag body => by
    simp [Stmt.copy, Stmt.shape, Stmt.shape_copyOpt init, Expr.shape_copyOpt tag, body.shape_copy]
  | .typeSwitch _ init guarded body => by
    simp [Stmt.copy, Stmt.shape, Stmt.shape_copyOpt init, guarded.shape_copy, body.shape_copy]
  | .commClause _ comm _ body => by
    simp [Stmt.copy, Stmt.shape, Stmt.shape_copyOpt comm, Stmt.shape_copyAll body]
  | .select _ body => by simp [Stmt.copy, Stmt.shape, body.shape_copy]
  | .forLoop _ init cond post body => by
    simp [Stmt.copy, Stmt.shape, Stmt.shape_copyOpt init, Expr.shape_copyOpt cond,
      Stmt.shape_copyOpt post, body.shape_copy]
  | .range _ key value _ _ operand body => by
    simp [Stmt.copy, Stmt.shape, Expr.shape_copyOpt key, Expr.shape_copyOpt value,
      operand.shape_copy, body.shape_copy, Function.comp_def]

theorem Stmt.shape_copyOpt : ∀ o : Option Stmt, Stmt.shapeOpt (Stmt.copyOpt c o) = Stmt.shapeOpt o
  | none => rfl
  | some s => congrArg some s.shape_copy

theorem Stmt.shape_copyAll : ∀ ss : List Stmt, Stmt.shapeAll (Stmt.copyAll c ss) = Stmt.shapeAll ss
  | [] => rfl
  | s :: ss => by
    rw [Stmt.copyAll, Stmt.shapeAll, s.shape_copy, Stmt.shape_copyAll ss, Stmt.shapeAll]

theorem GenDecl.shape_copy : ∀ d : GenDecl, (d.copy c).shape = d.shape
  | ⟨_, _, _, _, specs, _⟩ => by simp [GenDecl.copy, GenDecl.shape, Spec.shape_copyAll specs]

theorem Spec.shape_copy : ∀ s : Spec, (s.copy c).shape = s.shape
  | .importSpec _ => by simp [Spec.copy, Spec.shape]
  | .valueSpec _ _ type _ values _ => by
    simp [Spec.copy, Spec.shape, TypeExpr.shape_copyOpt type, Expr.shape_copyAll values,
      Function.comp_def]
  | .typeSpec _ _ typeParams _ type _ => by
    simp [Spec.copy, Spec.shape, FieldList.shape_copyOpt typeParams, type.shape_copy]

theorem Spec.shape_copyAll : ∀ ss : List Spec, Spec.shapeAll (Spec.copyAll c ss) = Spec.shapeAll ss
  | [] => rfl
  | s :: ss => by
    rw [Spec.copyAll, Spec.shapeAll, s.shape_copy, Spec.shape_copyAll ss, Spec.shapeAll]

end

end Plain

end GoLayout
