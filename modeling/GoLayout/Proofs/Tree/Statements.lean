import GoLayout.Proofs.Tree.Constituent
import GoLayout.Tree.Traverse

/-!
A tree with its statements changed one by one, each after what is in it, and all else as it is. This
is what becomes of a tree that a visitor goes through which changes the statements it leaves. If no
statement gains parts by its change, the nodes of the outcome are among those of the tree, each with
the statements in it changed. A tree all statements of which stay as they are stays as it is.
-/

namespace GoLayout

section Change

variable (g : Stmt → Stmt)

mutual

def Expr.mapStmts : Expr → Expr
  | .ident name => .ident name
  | .literal lit => .literal lit
  | .func funcPos sig body => .func funcPos sig.mapStmts body.mapStmts
  | .composite type lbrace elements rbrace =>
    .composite (TypeExpr.mapStmtsOpt type) lbrace (Expr.mapStmtsAll elements) rbrace
  | .paren lparen inner rparen => .paren lparen inner.mapStmts rparen
  | .selector operand dot member => .selector operand.mapStmts dot member
  | .index operand lbrack indices rbrack =>
    .index operand.mapStmts lbrack (Expr.mapStmtsAll indices) rbrack
  | .slice operand lbrack lo hi max full rbrack =>
    .slice operand.mapStmts lbrack (Expr.mapStmtsOpt lo) (Expr.mapStmtsOpt hi)
      (Expr.mapStmtsOpt max) full rbrack
  | .assertion operand dot lparen type rparen =>
    .assertion operand.mapStmts dot lparen (TypeExpr.mapStmtsOpt type) rparen
  | .call fn lparen args spread rparen =>
    .call fn.mapStmts lparen (Expr.mapStmtsAll args) spread rparen
  | .unary op opPos operand => .unary op opPos operand.mapStmts
  | .binary left op opPos right => .binary left.mapStmts op opPos right.mapStmts
  | .keyValue key colon value => .keyValue key.mapStmts colon value.mapStmts
  | .type t => .type t.mapStmts

def Expr.mapStmtsOpt : Option Expr → Option Expr
  | none => none
  | some e => some e.mapStmts

def Expr.mapStmtsAll : List Expr → List Expr
  | [] => []
  | e :: es => e.mapStmts :: Expr.mapStmtsAll es

def TypeExpr.mapStmts : TypeExpr → TypeExpr
  | .named qualifier name => .named qualifier name
  | .generic qualifier name lbrack args rbrack =>
    .generic qualifier name lbrack (TypeExpr.mapStmtsAll args) rbrack
  | .pointer star elem => .pointer star elem.mapStmts
  | .array lbrack len rbrack elem => .array lbrack len.mapStmts rbrack elem.mapStmts
  | .countedArray lbrack dots rbrack elem => .countedArray lbrack dots rbrack elem.mapStmts
  | .slice lbrack rbrack elem => .slice lbrack rbrack elem.mapStmts
  | .map mapPos lbrack key rbrack value =>
    .map mapPos lbrack key.mapStmts rbrack value.mapStmts
  | .chan dir chanPos elem => .chan dir chanPos elem.mapStmts
  | .struct structPos fields => .struct structPos fields.mapStmts
  | .interface interfacePos elements => .interface interfacePos elements.mapStmts
  | .func funcPos sig => .func funcPos sig.mapStmts
  | .paren lparen inner rparen => .paren lparen inner.mapStmts rparen
  | .variadic dots elem => .variadic dots elem.mapStmts
  | .union terms => .union (TypeExpr.mapStmtsAll terms)
  | .tilde tildePos inner => .tilde tildePos inner.mapStmts

def TypeExpr.mapStmtsOpt : Option TypeExpr → Option TypeExpr
  | none => none
  | some t => some t.mapStmts

def TypeExpr.mapStmtsAll : List TypeExpr → List TypeExpr
  | [] => []
  | t :: ts => t.mapStmts :: TypeExpr.mapStmtsAll ts

def Field.mapStmts : Field → Field
  | ⟨doc, names, type, tag, comment⟩ => ⟨doc, names, type.mapStmts, tag, comment⟩

def Field.mapStmtsAll : List Field → List Field
  | [] => []
  | f :: fs => f.mapStmts :: Field.mapStmtsAll fs

def FieldList.mapStmts : FieldList → FieldList
  | ⟨brackets, fields⟩ => ⟨brackets, Field.mapStmtsAll fields⟩

def FieldList.mapStmtsOpt : Option FieldList → Option FieldList
  | none => none
  | some fields => some fields.mapStmts

def Signature.mapStmts : Signature → Signature
  | ⟨params, results⟩ => ⟨params.mapStmts, FieldList.mapStmtsOpt results⟩

def Block.mapStmts : Block → Block
  | ⟨lbrace, stmts, rbrace⟩ => ⟨lbrace, Stmt.mapStmtsAll stmts, rbrace⟩

def Stmt.mapStmts : Stmt → Stmt
  | .decl d => g (.decl d.mapStmts)
  | .empty span => g (.empty span)
  | .labeled label colon stmt => g (.labeled label colon stmt.mapStmts)
  | .expr e => g (.expr e.mapStmts)
  | .send chan arrow value => g (.send chan.mapStmts arrow value.mapStmts)
  | .incDec operand op opPos => g (.incDec operand.mapStmts op opPos)
  | .assign lhs op opPos rhs =>
    g (.assign (Expr.mapStmtsAll lhs) op opPos (Expr.mapStmtsAll rhs))
  | .go goPos call => g (.go goPos call.mapStmts)
  | .defer deferPos call => g (.defer deferPos call.mapStmts)
  | .returns returnPos results => g (.returns returnPos (Expr.mapStmtsAll results))
  | .branch kind kwPos label => g (.branch kind kwPos label)
  | .block b => g (.block b.mapStmts)
  | .ifElse ifPos init cond body orElse =>
    g (.ifElse ifPos (Stmt.mapStmtsOpt init) cond.mapStmts body.mapStmts
      (Stmt.mapStmtsOpt orElse))
  | .caseClause casePos values colon body =>
    g (.caseClause casePos (Expr.mapStmtsAll values) colon (Stmt.mapStmtsAll body))
  | .switch switchPos init tag body =>
    g (.switch switchPos (Stmt.mapStmtsOpt init) (Expr.mapStmtsOpt tag) body.mapStmts)
  | .typeSwitch switchPos init guarded body =>
    g (.typeSwitch switchPos (Stmt.mapStmtsOpt init) guarded.mapStmts body.mapStmts)
  | .commClause casePos comm colon body =>
    g (.commClause casePos (Stmt.mapStmtsOpt comm) colon (Stmt.mapStmtsAll body))
  | .select selectPos body => g (.select selectPos body.mapStmts)
  | .forLoop forPos init cond post body =>
    g (.forLoop forPos (Stmt.mapStmtsOpt init) (Expr.mapStmtsOpt cond) (Stmt.mapStmtsOpt post)
      body.mapStmts)
  | .range forPos key value op rangePos operand body =>
    g (.range forPos (Expr.mapStmtsOpt key) (Expr.mapStmtsOpt value) op rangePos operand.mapStmts
      body.mapStmts)

def Stmt.mapStmtsOpt : Option Stmt → Option Stmt
  | none => none
  | some s => some s.mapStmts

def Stmt.mapStmtsAll : List Stmt → List Stmt
  | [] => []
  | s :: ss => s.mapStmts :: Stmt.mapStmtsAll ss

def GenDecl.mapStmts : GenDecl → GenDecl
  | ⟨doc, kwPos, kind, lparen, specs, rparen⟩ =>
    ⟨doc, kwPos, kind, lparen, Spec.mapStmtsAll specs, rparen⟩

def Spec.mapStmts : Spec → Spec
  | .importSpec spec => .importSpec spec
  | .valueSpec doc names type assign values comment =>
    .valueSpec doc names (TypeExpr.mapStmtsOpt type) assign (Expr.mapStmtsAll values) comment
  | .typeSpec doc name typeParams assign type comment =>
    .typeSpec doc name (FieldList.mapStmtsOpt typeParams) assign type.mapStmts comment

def Spec.mapStmtsAll : List Spec → List Spec
  | [] => []
  | s :: ss => s.mapStmts :: Spec.mapStmtsAll ss

end

def FuncDecl.mapStmts (f : FuncDecl) : FuncDecl :=
  { f with
    receiver := f.receiver.map (FieldList.mapStmts g)
    typeParams := f.typeParams.map (FieldList.mapStmts g)
    sig := f.sig.mapStmts g
    body := f.body.map (Block.mapStmts g) }

def Decl.mapStmts : Decl → Decl
  | .gen d => .gen (d.mapStmts g)
  | .func f => .func (f.mapStmts g)

def Node.mapStmts : Node → Node
  | .decl d => .decl (d.mapStmts g)
  | .func f => .func (f.mapStmts g)
  | .stmt s => .stmt (s.mapStmts g)
  | .expr e => .expr (e.mapStmts g)
  | .type t => .type (t.mapStmts g)
  | .field f => .field (f.mapStmts g)
  | .sig s => .sig (s.mapStmts g)

def SourceFile.mapStmts (f : SourceFile) : SourceFile :=
  { f with decls := f.decls.map (Decl.mapStmts g) }

end Change

variable {g : Stmt → Stmt}

/-! ### Lists and options -/

@[simp] theorem Expr.mapStmtsOpt_eq (o : Option Expr) :
    Expr.mapStmtsOpt g o = o.map (Expr.mapStmts g) := by
  cases o <;> rfl

@[simp] theorem TypeExpr.mapStmtsOpt_eq (o : Option TypeExpr) :
    TypeExpr.mapStmtsOpt g o = o.map (TypeExpr.mapStmts g) := by
  cases o <;> rfl

@[simp] theorem FieldList.mapStmtsOpt_eq (o : Option FieldList) :
    FieldList.mapStmtsOpt g o = o.map (FieldList.mapStmts g) := by
  cases o <;> rfl

@[simp] theorem Stmt.mapStmtsOpt_eq (o : Option Stmt) :
    Stmt.mapStmtsOpt g o = o.map (Stmt.mapStmts g) := by
  cases o <;> rfl

@[simp] theorem Expr.mapStmtsAll_eq (es : List Expr) :
    Expr.mapStmtsAll g es = es.map (Expr.mapStmts g) := by
  induction es with
  | nil => rfl
  | cons e es ih => rw [mapStmtsAll, ih, List.map_cons]

@[simp] theorem TypeExpr.mapStmtsAll_eq (ts : List TypeExpr) :
    TypeExpr.mapStmtsAll g ts = ts.map (TypeExpr.mapStmts g) := by
  induction ts with
  | nil => rfl
  | cons t ts ih => rw [mapStmtsAll, ih, List.map_cons]

@[simp] theorem Field.mapStmtsAll_eq (fs : List Field) :
    Field.mapStmtsAll g fs = fs.map (Field.mapStmts g) := by
  induction fs with
  | nil => rfl
  | cons f fs ih => rw [mapStmtsAll, ih, List.map_cons]

@[simp] theorem Stmt.mapStmtsAll_eq (ss : List Stmt) :
    Stmt.mapStmtsAll g ss = ss.map (Stmt.mapStmts g) := by
  induction ss with
  | nil => rfl
  | cons s ss ih => rw [mapStmtsAll, ih, List.map_cons]

@[simp] theorem Spec.mapStmtsAll_eq (ss : List Spec) :
    Spec.mapStmtsAll g ss = ss.map (Spec.mapStmts g) := by
  induction ss with
  | nil => rfl
  | cons s ss ih => rw [mapStmtsAll, ih, List.map_cons]

/-! ### Visits -/

/-- Changes the statements it leaves, and nothing else. -/
def Visitor.stmtwise (g : Stmt → Stmt) : Visitor Id :=
  { Visitor.idle with stmt := fun _ s => g s }

mutual

theorem Expr.visit_stmtwise : ∀ e : Expr, e.visit (.stmtwise g) = e.mapStmts g
  | .ident _ => rfl
  | .literal _ => rfl
  | .func _ sig body => congrArg₂ (Expr.func _ · ·) sig.visit_stmtwise (body.visit_stmtwise .body)
  | .composite type _ elements _ =>
    congrArg₂ (Expr.composite · _ · _) (TypeExpr.visitOpt_stmtwise type)
      (Expr.visitAll_stmtwise elements)
  | .paren _ inner _ => congrArg (Expr.paren _ · _) inner.visit_stmtwise
  | .selector operand _ _ => congrArg (Expr.selector · _ _) operand.visit_stmtwise
  | .index operand _ indices _ =>
    congrArg₂ (Expr.index · _ · _) operand.visit_stmtwise (Expr.visitAll_stmtwise indices)
  | .slice operand _ lo hi max _ _ => by
    rw [Expr.mapStmts, ← operand.visit_stmtwise, ← Expr.visitOpt_stmtwise lo,
      ← Expr.visitOpt_stmtwise hi, ← Expr.visitOpt_stmtwise max]
    rfl
  | .assertion operand _ _ type _ =>
    congrArg₂ (Expr.assertion · _ _ · _) operand.visit_stmtwise (TypeExpr.visitOpt_stmtwise type)
  | .call fn _ args _ _ =>
    congrArg₂ (Expr.call · _ · _ _) fn.visit_stmtwise (Expr.visitAll_stmtwise args)
  | .unary _ _ operand => congrArg (Expr.unary _ _ ·) operand.visit_stmtwise
  | .binary left _ _ right =>
    congrArg₂ (Expr.binary · _ _ ·) left.visit_stmtwise right.visit_stmtwise
  | .keyValue key _ value => congrArg₂ (Expr.keyValue · _ ·) key.visit_stmtwise value.visit_stmtwise
  | .type t => congrArg (Expr.type ·) t.visit_stmtwise

theorem Expr.visitOpt_stmtwise : ∀ o : Option Expr,
    Expr.visitOpt (.stmtwise g) o = Expr.mapStmtsOpt g o
  | none => rfl
  | some e => congrArg some e.visit_stmtwise

theorem Expr.visitAll_stmtwise : ∀ es : List Expr,
    Expr.visitAll (.stmtwise g) es = Expr.mapStmtsAll g es
  | [] => rfl
  | e :: es => congrArg₂ List.cons e.visit_stmtwise (Expr.visitAll_stmtwise es)

theorem TypeExpr.visit_stmtwise : ∀ t : TypeExpr, t.visit (.stmtwise g) = t.mapStmts g
  | .named _ _ => rfl
  | .generic _ _ _ args _ => congrArg (TypeExpr.generic _ _ _ · _) (TypeExpr.visitAll_stmtwise args)
  | .pointer _ elem => congrArg (TypeExpr.pointer _ ·) elem.visit_stmtwise
  | .array _ len _ elem => congrArg₂ (TypeExpr.array _ · _ ·) len.visit_stmtwise elem.visit_stmtwise
  | .countedArray _ _ _ elem => congrArg (TypeExpr.countedArray _ _ _ ·) elem.visit_stmtwise
  | .slice _ _ elem => congrArg (TypeExpr.slice _ _ ·) elem.visit_stmtwise
  | .map _ _ key _ value =>
    congrArg₂ (TypeExpr.map _ _ · _ ·) key.visit_stmtwise value.visit_stmtwise
  | .chan _ _ elem => congrArg (TypeExpr.chan _ _ ·) elem.visit_stmtwise
  | .struct _ fields => congrArg (TypeExpr.struct _ ·) fields.visit_stmtwise
  | .interface _ elements => congrArg (TypeExpr.interface _ ·) elements.visit_stmtwise
  | .func _ sig => congrArg (TypeExpr.func _ ·) sig.visit_stmtwise
  | .paren _ inner _ => congrArg (TypeExpr.paren _ · _) inner.visit_stmtwise
  | .variadic _ elem => congrArg (TypeExpr.variadic _ ·) elem.visit_stmtwise
  | .union terms => congrArg (TypeExpr.union ·) (TypeExpr.visitAll_stmtwise terms)
  | .tilde _ inner => congrArg (TypeExpr.tilde _ ·) inner.visit_stmtwise

theorem TypeExpr.visitOpt_stmtwise : ∀ o : Option TypeExpr,
    TypeExpr.visitOpt (.stmtwise g) o = TypeExpr.mapStmtsOpt g o
  | none => rfl
  | some t => congrArg some t.visit_stmtwise

theorem TypeExpr.visitAll_stmtwise : ∀ ts : List TypeExpr,
    TypeExpr.visitAll (.stmtwise g) ts = TypeExpr.mapStmtsAll g ts
  | [] => rfl
  | t :: ts => congrArg₂ List.cons t.visit_stmtwise (TypeExpr.visitAll_stmtwise ts)

theorem Field.visit_stmtwise : ∀ f : Field, f.visit (.stmtwise g) = f.mapStmts g
  | ⟨_, _, type, _, _⟩ => congrArg (fun type => (⟨_, _, type, _, _⟩ : Field)) type.visit_stmtwise

theorem Field.visitAll_stmtwise : ∀ fs : List Field,
    Field.visitAll (.stmtwise g) fs = Field.mapStmtsAll g fs
  | [] => rfl
  | f :: fs => congrArg₂ List.cons f.visit_stmtwise (Field.visitAll_stmtwise fs)

theorem FieldList.visit_stmtwise : ∀ l : FieldList, l.visit (.stmtwise g) = l.mapStmts g
  | ⟨_, fields⟩ =>
    congrArg (fun fields => (⟨_, fields⟩ : FieldList)) (Field.visitAll_stmtwise fields)

theorem FieldList.visitOpt_stmtwise : ∀ o : Option FieldList,
    FieldList.visitOpt (.stmtwise g) o = FieldList.mapStmtsOpt g o
  | none => rfl
  | some l => congrArg some l.visit_stmtwise

theorem Signature.visit_stmtwise : ∀ s : Signature, s.visit (.stmtwise g) = s.mapStmts g
  | ⟨params, results⟩ =>
    congrArg₂ (fun params results => (⟨params, results⟩ : Signature)) params.visit_stmtwise
      (FieldList.visitOpt_stmtwise results)

theorem Block.visit_stmtwise (role : BlockRole) :
    ∀ b : Block, b.visit (.stmtwise g) role = b.mapStmts g
  | ⟨_, stmts, _⟩ => congrArg (fun stmts => (⟨_, stmts, _⟩ : Block)) (Stmt.visitAll_stmtwise stmts)

theorem Stmt.visit_stmtwise : ∀ s : Stmt, s.visit (.stmtwise g) = s.mapStmts g
  | .decl d => congrArg (fun d => g (.decl d)) d.visit_stmtwise
  | .empty _ => rfl
  | .labeled _ _ stmt => congrArg (fun stmt => g (.labeled _ _ stmt)) stmt.visit_stmtwise
  | .expr e => congrArg (fun e => g (.expr e)) e.visit_stmtwise
  | .send chan _ value =>
    congrArg₂ (fun chan value => g (.send chan _ value)) chan.visit_stmtwise value.visit_stmtwise
  | .incDec operand _ _ => congrArg (fun operand => g (.incDec operand _ _)) operand.visit_stmtwise
  | .assign lhs _ _ rhs =>
    congrArg₂ (fun lhs rhs => g (.assign lhs _ _ rhs)) (Expr.visitAll_stmtwise lhs)
      (Expr.visitAll_stmtwise rhs)
  | .go _ call => congrArg (fun call => g (.go _ call)) call.visit_stmtwise
  | .defer _ call => congrArg (fun call => g (.defer _ call)) call.visit_stmtwise
  | .returns _ results =>
    congrArg (fun results => g (.returns _ results)) (Expr.visitAll_stmtwise results)
  | .branch _ _ _ => rfl
  | .block b => congrArg (fun b => g (.block b)) (b.visit_stmtwise .inner)
  | .ifElse _ init cond body orElse => by
    rw [Stmt.mapStmts, ← Stmt.visitOpt_stmtwise init, ← cond.visit_stmtwise,
      ← body.visit_stmtwise .inner, ← Stmt.visitOpt_stmtwise orElse]
    rfl
  | .caseClause _ values _ body =>
    congrArg₂ (fun values body => g (.caseClause _ values _ body)) (Expr.visitAll_stmtwise values)
      (Stmt.visitAll_stmtwise body)
  | .switch _ init tag body => by
    rw [Stmt.mapStmts, ← Stmt.visitOpt_stmtwise init, ← Expr.visitOpt_stmtwise tag,
      ← body.visit_stmtwise .inner]
    rfl
  | .typeSwitch _ init guarded body => by
    rw [Stmt.mapStmts, ← Stmt.visitOpt_stmtwise init, ← guarded.visit_stmtwise,
      ← body.visit_stmtwise .inner]
    rfl
  | .commClause _ comm _ body =>
    congrArg₂ (fun comm body => g (.commClause _ comm _ body)) (Stmt.visitOpt_stmtwise comm)
      (Stmt.visitAll_stmtwise body)
  | .select _ body => congrArg (fun body => g (.select _ body)) (body.visit_stmtwise .inner)
  | .forLoop _ init cond post body => by
    rw [Stmt.mapStmts, ← Stmt.visitOpt_stmtwise init, ← Expr.visitOpt_stmtwise cond,
      ← Stmt.visitOpt_stmtwise post, ← body.visit_stmtwise .inner]
    rfl
  | .range _ key value _ _ operand body => by
    rw [Stmt.mapStmts, ← Expr.visitOpt_stmtwise key, ← Expr.visitOpt_stmtwise value,
      ← operand.visit_stmtwise, ← body.visit_stmtwise .inner]
    rfl

theorem Stmt.visitOpt_stmtwise : ∀ o : Option Stmt,
    Stmt.visitOpt (.stmtwise g) o = Stmt.mapStmtsOpt g o
  | none => rfl
  | some s => congrArg some s.visit_stmtwise

theorem Stmt.visitAll_stmtwise : ∀ ss : List Stmt,
    Stmt.visitAll (.stmtwise g) ss = Stmt.mapStmtsAll g ss
  | [] => rfl
  | s :: ss => congrArg₂ List.cons s.visit_stmtwise (Stmt.visitAll_stmtwise ss)

theorem GenDecl.visit_stmtwise : ∀ d : GenDecl, d.visit (.stmtwise g) = d.mapStmts g
  | ⟨_, _, _, _, specs, _⟩ =>
    congrArg (fun specs => (⟨_, _, _, _, specs, _⟩ : GenDecl)) (Spec.visitAll_stmtwise specs)

theorem Spec.visit_stmtwise : ∀ s : Spec, s.visit (.stmtwise g) = s.mapStmts g
  | .importSpec _ => rfl
  | .valueSpec _ _ type _ values _ =>
    congrArg₂ (Spec.valueSpec _ _ · _ · _) (TypeExpr.visitOpt_stmtwise type)
      (Expr.visitAll_stmtwise values)
  | .typeSpec _ _ typeParams _ type _ =>
    congrArg₂ (Spec.typeSpec _ _ · _ · _) (FieldList.visitOpt_stmtwise typeParams)
      type.visit_stmtwise

theorem Spec.visitAll_stmtwise : ∀ ss : List Spec,
    Spec.visitAll (.stmtwise g) ss = Spec.mapStmtsAll g ss
  | [] => rfl
  | s :: ss => congrArg₂ List.cons s.visit_stmtwise (Spec.visitAll_stmtwise ss)

end

theorem Block.visitBody_stmtwise (o : Option Block) :
    Block.visitBody (.stmtwise g) o = o.map (Block.mapStmts g) := by
  cases o with
  | none => rfl
  | some b => exact congrArg some (b.visit_stmtwise .body)

theorem FuncDecl.visit_stmtwise (f : FuncDecl) : f.visit (.stmtwise g) = f.mapStmts g := by
  rw [mapStmts, ← f.sig.visit_stmtwise, ← FieldList.mapStmtsOpt_eq, ← FieldList.mapStmtsOpt_eq,
    ← FieldList.visitOpt_stmtwise, ← FieldList.visitOpt_stmtwise, ← Block.visitBody_stmtwise]
  rfl

theorem Decl.visit_stmtwise (d : Decl) : d.visit (.stmtwise g) = d.mapStmts g := by
  cases d with
  | gen d => exact congrArg Decl.gen d.visit_stmtwise
  | func f => exact congrArg Decl.func f.visit_stmtwise

theorem Decl.visitAll_stmtwise (ds : List Decl) :
    Decl.visitAll (.stmtwise g) ds = ds.map (Decl.mapStmts g) := by
  induction ds with
  | nil => rfl
  | cons d ds ih =>
    rw [List.map_cons, ← d.visit_stmtwise, ← ih]
    rfl

/-! ### Constituents -/

namespace Constituent

def mapStmts (g : Stmt → Stmt) : Constituent → Constituent
  | .node m => .node (m.mapStmts g)
  | .spec s => .spec (s.mapStmts g)
  | .fields l => .fields (l.mapStmts g)
  | .block b => .block (b.mapStmts g)
  | .name i => .name i
  | .literal l => .literal l

@[simp] theorem mapStmts_expr (e : Expr) : (expr e).mapStmts g = expr (e.mapStmts g) := rfl

@[simp] theorem mapStmts_type (t : TypeExpr) : (type t).mapStmts g = type (t.mapStmts g) := rfl

@[simp] theorem mapStmts_stmt (s : Stmt) : (stmt s).mapStmts g = stmt (s.mapStmts g) := rfl

@[simp] theorem mapStmts_decl (d : GenDecl) : (decl d).mapStmts g = decl (d.mapStmts g) := rfl

@[simp] theorem mapStmts_field (f : Field) : (field f).mapStmts g = field (f.mapStmts g) := rfl

@[simp] theorem mapStmts_sig (s : Signature) : (sig s).mapStmts g = sig (s.mapStmts g) := rfl

@[simp] theorem mapStmts_spec (s : Spec) : (spec s).mapStmts g = spec (s.mapStmts g) := rfl

@[simp] theorem mapStmts_fields (l : FieldList) :
    (fields l).mapStmts g = fields (l.mapStmts g) := rfl

@[simp] theorem mapStmts_block (b : Block) : (block b).mapStmts g = block (b.mapStmts g) := rfl

@[simp] theorem mapStmts_name (i : Ident) : (name i).mapStmts g = name i := rfl

@[simp] theorem mapStmts_literal (l : Literal) : (literal l).mapStmts g = literal l := rfl

/-! The parts of the outcome are those of the constituent, each changed. -/

theorem exprParts_mapStmts (e : Expr) :
    exprParts (e.mapStmts g) = (exprParts e).map (mapStmts g) := by
  cases e <;> simp [exprParts, Expr.mapStmts, Option.toList_map, Function.comp_def]

theorem typeParts_mapStmts (t : TypeExpr) :
    typeParts (t.mapStmts g) = (typeParts t).map (mapStmts g) := by
  cases t <;> simp [typeParts, TypeExpr.mapStmts, Function.comp_def]

theorem fieldParts_mapStmts : ∀ f : Field,
    fieldParts (f.mapStmts g) = (fieldParts f).map (mapStmts g)
  | ⟨_, _, _, _, _⟩ => by simp [fieldParts, Field.mapStmts, Function.comp_def]

theorem sigParts_mapStmts : ∀ s : Signature,
    sigParts (s.mapStmts g) = (sigParts s).map (mapStmts g)
  | ⟨_, _⟩ => by simp [sigParts, Signature.mapStmts, Option.toList_map, Function.comp_def]

theorem specParts_mapStmts (s : Spec) :
    specParts (s.mapStmts g) = (specParts s).map (mapStmts g) := by
  cases s with
  | importSpec s =>
    obtain ⟨_, name, _, _⟩ := s
    rcases name with _ | _ | _ <;> rfl
  | _ => simp [specParts, Spec.mapStmts, Option.toList_map, Function.comp_def]

theorem funcParts_mapStmts (f : FuncDecl) :
    funcParts (f.mapStmts g) = (funcParts f).map (mapStmts g) := by
  simp [funcParts, FuncDecl.mapStmts, Option.toList_map, Function.comp_def]

theorem declParts_mapStmts : ∀ d : GenDecl,
    (d.mapStmts g).specs.map spec = (d.specs.map spec).map (mapStmts g)
  | ⟨_, _, _, _, _, _⟩ => by simp [GenDecl.mapStmts, Function.comp_def]

theorem listParts_mapStmts : ∀ l : FieldList,
    (l.mapStmts g).fields.map field = (l.fields.map field).map (mapStmts g)
  | ⟨_, _⟩ => by simp [FieldList.mapStmts, Function.comp_def]

theorem blockParts_mapStmts : ∀ b : Block,
    (b.mapStmts g).stmts.map stmt = (b.stmts.map stmt).map (mapStmts g)
  | ⟨_, _, _⟩ => by simp [Block.mapStmts, Function.comp_def]

section Fewer

variable (fewer : ∀ s, stmtParts (g s) ⊆ stmtParts s)

include fewer

theorem stmtParts_mapStmts (s : Stmt) :
    stmtParts (s.mapStmts g) ⊆ (stmtParts s).map (mapStmts g) := by
  cases s <;> refine List.Subset.trans (fewer _) ?_ <;>
    simp [stmtParts, Option.toList_map, Function.comp_def]

theorem parts_mapStmts : ∀ c : Constituent, (c.mapStmts g).parts ⊆ c.parts.map (mapStmts g)
  | .node (.decl d) => fun _ mem => declParts_mapStmts d ▸ mem
  | .node (.func f) => fun _ mem => funcParts_mapStmts f ▸ mem
  | .node (.stmt s) => stmtParts_mapStmts fewer s
  | .node (.expr e) => fun _ mem => exprParts_mapStmts e ▸ mem
  | .node (.type t) => fun _ mem => typeParts_mapStmts t ▸ mem
  | .node (.field f) => fun _ mem => fieldParts_mapStmts f ▸ mem
  | .node (.sig s) => fun _ mem => sigParts_mapStmts s ▸ mem
  | .spec s => fun _ mem => specParts_mapStmts s ▸ mem
  | .fields l => fun _ mem => listParts_mapStmts l ▸ mem
  | .block b => fun _ mem => blockParts_mapStmts b ▸ mem
  | .name _ => List.nil_subset _
  | .literal _ => List.nil_subset _

/-- The nodes of the outcome are among those of the constituent, each changed. -/
theorem nodes_mapStmts (c : Constituent) :
    (c.mapStmts g).nodes ⊆ c.nodes.map (Node.mapStmts g) := by
  induction c using of_parts with
  | step c ih =>
    intro m mem
    rw [c.nodes_eq, List.map_append]
    rw [(c.mapStmts g).nodes_eq] at mem
    rcases List.mem_append.mp mem with own | below
    · refine List.mem_append_left _ ?_
      cases c with
      | node n => exact own
      | _ => cases own
    · obtain ⟨q, part, mem⟩ := List.mem_flatMap.mp below
      obtain ⟨p, isPart, rfl⟩ := List.mem_map.mp (parts_mapStmts fewer c part)
      obtain ⟨m, inPart, rfl⟩ := List.mem_map.mp (ih p isPart mem)
      exact List.mem_append_right _ (List.mem_map_of_mem (List.mem_flatMap.mpr ⟨p, isPart, inPart⟩))

end Fewer

/-! ### Statements that stay as they are -/

theorem map_eq_self {α : Type} {f : α → α} {l : List α} : l.map f = l ↔ ∀ a ∈ l, f a = a := by
  simpa using List.map_inj_left (f := f) (g := id) (l := l)

theorem toList_map_eq_self {α : Type} {f : α → α} {o : Option α} :
    o.toList.map f = o.toList ↔ o.map f = o := by
  cases o <;> simp

theorem exprs_fixed {es : List Expr} :
    (∀ p ∈ es.map expr, p.mapStmts g = p) ↔ es.map (Expr.mapStmts g) = es := by
  simp only [map_eq_self, List.forall_mem_map, mapStmts_expr, expr_inj]

theorem types_fixed {ts : List TypeExpr} :
    (∀ p ∈ ts.map type, p.mapStmts g = p) ↔ ts.map (TypeExpr.mapStmts g) = ts := by
  simp only [map_eq_self, List.forall_mem_map, mapStmts_type, type_inj]

theorem stmts_fixed {ss : List Stmt} :
    (∀ p ∈ ss.map stmt, p.mapStmts g = p) ↔ ss.map (Stmt.mapStmts g) = ss := by
  simp only [map_eq_self, List.forall_mem_map, mapStmts_stmt, stmt_inj]

theorem fields_fixed {fs : List Field} :
    (∀ p ∈ fs.map field, p.mapStmts g = p) ↔ fs.map (Field.mapStmts g) = fs := by
  simp only [map_eq_self, List.forall_mem_map, mapStmts_field, field_inj]

theorem specs_fixed {ss : List Spec} :
    (∀ p ∈ ss.map spec, p.mapStmts g = p) ↔ ss.map (Spec.mapStmts g) = ss := by
  simp only [map_eq_self, List.forall_mem_map, mapStmts_spec, spec.injEq]

theorem lists_fixed {ls : List FieldList} :
    (∀ p ∈ ls.map fields, p.mapStmts g = p) ↔ ls.map (FieldList.mapStmts g) = ls := by
  simp only [map_eq_self, List.forall_mem_map, mapStmts_fields, fields.injEq]

theorem blocks_fixed {bs : List Block} :
    (∀ p ∈ bs.map block, p.mapStmts g = p) ↔ bs.map (Block.mapStmts g) = bs := by
  simp only [map_eq_self, List.forall_mem_map, mapStmts_block, block.injEq]

/-! A constituent stays as it is if its parts do, and itself where it is a statement. -/

theorem expr_eq_of_parts (e : Expr) (fixed : ∀ p ∈ exprParts e, p.mapStmts g = p) :
    e.mapStmts g = e := by
  cases e with
  | ident _ | literal _ => rfl
  | _ =>
    simp only [exprParts, List.forall_mem_append, List.forall_mem_cons,
      exprs_fixed, types_fixed, toList_map_eq_self, mapStmts_expr, mapStmts_type, mapStmts_sig,
      mapStmts_block, expr_inj, type_inj, sig_inj, block.injEq] at fixed
    simp only [Expr.mapStmts, Expr.mapStmtsOpt_eq, Expr.mapStmtsAll_eq, TypeExpr.mapStmtsOpt_eq, fixed]

theorem type_eq_of_parts (t : TypeExpr) (fixed : ∀ p ∈ typeParts t, p.mapStmts g = p) :
    t.mapStmts g = t := by
  cases t with
  | named _ _ => rfl
  | _ =>
    simp only [typeParts, List.forall_mem_append, List.forall_mem_cons,
      types_fixed, mapStmts_expr, mapStmts_type, mapStmts_sig, mapStmts_fields, expr_inj, type_inj,
      sig_inj, fields.injEq] at fixed
    simp only [TypeExpr.mapStmts, TypeExpr.mapStmtsAll_eq, fixed]

theorem stmt_eq_of_parts (s : Stmt) (own : g s = s) (fixed : ∀ p ∈ stmtParts s, p.mapStmts g = p) :
    s.mapStmts g = s := by
  refine Eq.trans ?_ own
  cases s with
  | empty _ | branch _ _ _ => rfl
  | _ =>
    simp only [stmtParts, List.forall_mem_append, List.forall_mem_cons,
      exprs_fixed, stmts_fixed, toList_map_eq_self, mapStmts_expr, mapStmts_stmt, mapStmts_decl,
      mapStmts_block, expr_inj, stmt_inj, decl_inj, block.injEq] at fixed
    simp only [Stmt.mapStmts, Expr.mapStmtsOpt_eq, Expr.mapStmtsAll_eq, Stmt.mapStmtsOpt_eq,
      Stmt.mapStmtsAll_eq, fixed]

theorem spec_eq_of_parts (s : Spec) (fixed : ∀ p ∈ specParts s, p.mapStmts g = p) :
    s.mapStmts g = s := by
  cases s with
  | importSpec _ => rfl
  | _ =>
    simp only [specParts, List.forall_mem_append, List.forall_mem_cons,
      exprs_fixed, types_fixed, lists_fixed, toList_map_eq_self, mapStmts_type, type_inj] at fixed
    simp only [Spec.mapStmts, Expr.mapStmtsAll_eq, TypeExpr.mapStmtsOpt_eq,
      FieldList.mapStmtsOpt_eq, fixed]

theorem func_eq_of_parts (f : FuncDecl) (fixed : ∀ p ∈ funcParts f, p.mapStmts g = p) :
    f.mapStmts g = f := by
  simp only [funcParts, List.forall_mem_append, List.forall_mem_cons, lists_fixed, blocks_fixed,
    toList_map_eq_self, mapStmts_sig, sig_inj] at fixed
  simp only [FuncDecl.mapStmts, fixed]

theorem mapStmts_eq_of_parts {c : Constituent} (own : ∀ s, .stmt s ∈ c.own → g s = s)
    (fixed : ∀ p ∈ c.parts, p.mapStmts g = p) : c.mapStmts g = c := by
  cases c with
  | node m =>
    refine congrArg node ?_
    cases m with
    | decl d =>
      obtain ⟨doc, kwPos, kind, lparen, specs, rparen⟩ := d
      have specs_eq : specs.map (Spec.mapStmts g) = specs := specs_fixed.mp fixed
      simp only [Node.mapStmts, GenDecl.mapStmts, Spec.mapStmtsAll_eq, specs_eq]
    | func f => exact congrArg Node.func (func_eq_of_parts f fixed)
    | stmt s => exact congrArg Node.stmt (stmt_eq_of_parts s (own s List.mem_cons_self) fixed)
    | expr e => exact congrArg Node.expr (expr_eq_of_parts e fixed)
    | type t => exact congrArg Node.type (type_eq_of_parts t fixed)
    | field f =>
      obtain ⟨doc, names, t, tag, comment⟩ := f
      simp only [parts, fieldParts, List.forall_mem_append, List.forall_mem_cons, mapStmts_type,
        type_inj] at fixed
      simp only [Node.mapStmts, Field.mapStmts, fixed]
    | sig s =>
      obtain ⟨params, results⟩ := s
      simp only [parts, sigParts, List.forall_mem_cons, lists_fixed, toList_map_eq_self,
        mapStmts_fields, fields.injEq] at fixed
      simp only [Node.mapStmts, Signature.mapStmts, FieldList.mapStmtsOpt_eq, fixed]
  | spec s => exact congrArg spec (spec_eq_of_parts s fixed)
  | fields l =>
    obtain ⟨brackets, list⟩ := l
    have list_eq : list.map (Field.mapStmts g) = list := fields_fixed.mp fixed
    rw [mapStmts, FieldList.mapStmts, Field.mapStmtsAll_eq, list_eq]
  | block b =>
    obtain ⟨lbrace, stmts, rbrace⟩ := b
    have stmts_eq : stmts.map (Stmt.mapStmts g) = stmts := stmts_fixed.mp fixed
    rw [mapStmts, Block.mapStmts, Stmt.mapStmtsAll_eq, stmts_eq]
  | name i => rfl
  | literal l => rfl

/-- A constituent in which every statement stays as it is stays as it is. -/
theorem mapStmts_eq_self {c : Constituent} (fixed : ∀ s, .stmt s ∈ c.nodes → g s = s) :
    c.mapStmts g = c := by
  induction c using of_parts with
  | step c ih =>
    rw [c.nodes_eq] at fixed
    refine mapStmts_eq_of_parts (fun s own => fixed s (List.mem_append_left _ own)) fun p isPart => ?_
    refine ih p isPart fun s inPart => fixed s (List.mem_append_right _ ?_)
    exact List.mem_flatMap.mpr ⟨p, isPart, inPart⟩

end Constituent

/-! ### Files -/

theorem Decl.toConstituent_mapStmts (d : Decl) :
    (d.mapStmts g).toConstituent = d.toConstituent.mapStmts g := by
  cases d <;> rfl

/-- A declaration in which every statement stays as it is stays as it is. -/
theorem Decl.mapStmts_eq_self {d : Decl} (fixed : ∀ s, .stmt s ∈ d.nodes → g s = s) :
    d.mapStmts g = d := by
  apply Decl.toConstituent_injective
  rw [d.toConstituent_mapStmts]
  rw [← d.nodes_toConstituent] at fixed
  exact Constituent.mapStmts_eq_self fixed

namespace SourceFile

variable {f : SourceFile}

theorem tops_mapStmts : (f.mapStmts g).tops = f.tops.map (Constituent.mapStmts g) := by
  rw [tops, tops, mapStmts, List.map_map, List.map_map]
  congr 1
  exact funext Decl.toConstituent_mapStmts

/-- The nodes of the outcome are among those of the file, each changed. -/
theorem nodes_mapStmts (fewer : ∀ s, Constituent.stmtParts (g s) ⊆ Constituent.stmtParts s) :
    (f.mapStmts g).nodes ⊆ f.nodes.map (Node.mapStmts g) := by
  intro m mem
  rw [← nodes_tops, tops_mapStmts] at mem
  obtain ⟨_, inOutcome, below⟩ := List.mem_flatMap.mp mem
  obtain ⟨c, top, rfl⟩ := List.mem_map.mp inOutcome
  obtain ⟨m, inTop, rfl⟩ := List.mem_map.mp (c.nodes_mapStmts fewer below)
  rw [← nodes_tops]
  exact List.mem_map_of_mem (List.mem_flatMap.mpr ⟨c, top, inTop⟩)

/-- A file in which every statement stays as it is stays as it is. -/
theorem mapStmts_eq_self (fixed : ∀ s, .stmt s ∈ f.nodes → g s = s) : f.mapStmts g = f := by
  have decls : f.decls.map (Decl.mapStmts g) = f.decls := by
    refine Constituent.map_eq_self.mpr fun d mem => Decl.mapStmts_eq_self fun s below => ?_
    exact fixed s (List.mem_flatMap.mpr ⟨d, mem, below⟩)
  rw [mapStmts, decls]

end SourceFile

end GoLayout
