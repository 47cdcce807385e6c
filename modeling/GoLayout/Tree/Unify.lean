import GoLayout.Tree.Basic

/-!
Comparison of trees up to the places of their tokens. Attached comments do not count, nor does
the presence of optional tokens, except for the dots that spread the last argument of a call. A
name in the left tree may stand for any expression; what it stands for is kept in bindings.
-/

namespace GoLayout

/-- What names stand for. -/
abbrev Bindings := List (String × Expr)

/-- A comparison, which may bind names as it goes and fails if the trees differ. -/
abbrev Comparison := StateT Bindings Option Unit

/-- What a name on the left is compared by, if it does not stand for itself. -/
abbrev NameRule := Ident → Option (Expr → Comparison)

namespace Comparison

def check (b : Bool) : Comparison := if b then pure () else failure

def idents (a b : Ident) : Comparison := check (a.text == b.text)

def literals (a b : Literal) : Comparison := check (a.kind == b.kind && a.text == b.text)

/-- Values that are both missing, or both there and compared by `r`. -/
def opt {α : Type} (r : α → α → Comparison) : Option α → Option α → Comparison
  | none, none => pure ()
  | some a, some b => r a b
  | _, _ => failure

def identLists : List Ident → List Ident → Comparison
  | [], [] => pure ()
  | a :: as, b :: bs => do
    idents a b
    identLists as bs
  | _, _ => failure

def qualifiers (a b : Option Qualifier) : Comparison :=
  opt (fun a b => idents a.package b.package) a b

def chanDirs : ChanDir → ChanDir → Comparison
  | .both, .both | .send _, .send _ | .recv _, .recv _ => pure ()
  | _, _ => failure

def importNames : ImportName → ImportName → Comparison
  | .dot _, .dot _ => pure ()
  | .name a, .name b => idents a b
  | _, _ => failure

def importSpecs (a b : ImportSpec) : Comparison := do
  opt importNames a.name b.name
  literals a.path b.path

end Comparison

open Comparison

variable (r : NameRule)

mutual

def Expr.unify : Expr → Expr → Comparison
  | .ident name, other =>
    match r name with
    | some compare => compare other
    | none =>
      match other with
      | .ident name' => idents name name'
      | _ => failure
  | .literal lit, other =>
    match other with
    | .literal lit' => literals lit lit'
    | _ => failure
  | .func _ sig body, other =>
    match other with
    | .func _ sig' body' => do
      sig.unify sig'
      body.unify body'
    | _ => failure
  | .composite type _ elements _, other =>
    match other with
    | .composite type' _ elements' _ => do
      TypeExpr.unifyOpt type type'
      Expr.unifyAll elements elements'
    | _ => failure
  | .paren _ inner _, other =>
    match other with
    | .paren _ inner' _ => inner.unify inner'
    | _ => failure
  | .selector operand _ member, other =>
    match other with
    | .selector operand' _ member' => do
      operand.unify operand'
      idents member member'
    | _ => failure
  | .index operand _ indices _, other =>
    match other with
    | .index operand' _ indices' _ => do
      operand.unify operand'
      Expr.unifyAll indices indices'
    | _ => failure
  | .slice operand _ lo hi max full _, other =>
    match other with
    | .slice operand' _ lo' hi' max' full' _ => do
      operand.unify operand'
      Expr.unifyOpt lo lo'
      Expr.unifyOpt hi hi'
      Expr.unifyOpt max max'
      check (full == full')
    | _ => failure
  | .assertion operand _ _ type _, other =>
    match other with
    | .assertion operand' _ _ type' _ => do
      operand.unify operand'
      TypeExpr.unifyOpt type type'
    | _ => failure
  | .call fn _ args spread _, other =>
    match other with
    | .call fn' _ args' spread' _ => do
      check (spread.isSome == spread'.isSome)
      fn.unify fn'
      Expr.unifyAll args args'
    | _ => failure
  | .unary op _ operand, other =>
    match other with
    | .unary op' _ operand' => do
      check (op == op')
      operand.unify operand'
    | _ => failure
  | .binary left op _ right, other =>
    match other with
    | .binary left' op' _ right' => do
      left.unify left'
      check (op == op')
      right.unify right'
    | _ => failure
  | .keyValue key _ value, other =>
    match other with
    | .keyValue key' _ value' => do
      key.unify key'
      value.unify value'
    | _ => failure
  | .type t, other =>
    match other with
    | .type t' => t.unify t'
    | _ => failure
termination_by structural x => x

def Expr.unifyOpt : Option Expr → Option Expr → Comparison
  | none, none => pure ()
  | some e, some e' => e.unify e'
  | _, _ => failure
termination_by structural x => x

def Expr.unifyAll : List Expr → List Expr → Comparison
  | [], [] => pure ()
  | e :: es, e' :: es' => do
    e.unify e'
    Expr.unifyAll es es'
  | _, _ => failure
termination_by structural x => x

def TypeExpr.unify : TypeExpr → TypeExpr → Comparison
  | .named qualifier name, other =>
    match other with
    | .named qualifier' name' => do
      qualifiers qualifier qualifier'
      idents name name'
    | _ => failure
  | .generic qualifier name _ args _, other =>
    match other with
    | .generic qualifier' name' _ args' _ => do
      qualifiers qualifier qualifier'
      idents name name'
      TypeExpr.unifyAll args args'
    | _ => failure
  | .pointer _ elem, other =>
    match other with
    | .pointer _ elem' => elem.unify elem'
    | _ => failure
  | .array _ len _ elem, other =>
    match other with
    | .array _ len' _ elem' => do
      len.unify len'
      elem.unify elem'
    | _ => failure
  | .countedArray _ _ _ elem, other =>
    match other with
    | .countedArray _ _ _ elem' => elem.unify elem'
    | _ => failure
  | .slice _ _ elem, other =>
    match other with
    | .slice _ _ elem' => elem.unify elem'
    | _ => failure
  | .map _ _ key _ value, other =>
    match other with
    | .map _ _ key' _ value' => do
      key.unify key'
      value.unify value'
    | _ => failure
  | .chan dir _ elem, other =>
    match other with
    | .chan dir' _ elem' => do
      chanDirs dir dir'
      elem.unify elem'
    | _ => failure
  | .struct _ fields, other =>
    match other with
    | .struct _ fields' => fields.unify fields'
    | _ => failure
  | .interface _ elements, other =>
    match other with
    | .interface _ elements' => elements.unify elements'
    | _ => failure
  | .func _ sig, other =>
    match other with
    | .func _ sig' => sig.unify sig'
    | _ => failure
  | .paren _ inner _, other =>
    match other with
    | .paren _ inner' _ => inner.unify inner'
    | _ => failure
  | .variadic _ elem, other =>
    match other with
    | .variadic _ elem' => elem.unify elem'
    | _ => failure
  | .union terms, other =>
    match other with
    | .union terms' => TypeExpr.unifyAll terms terms'
    | _ => failure
  | .tilde _ inner, other =>
    match other with
    | .tilde _ inner' => inner.unify inner'
    | _ => failure
termination_by structural x => x

def TypeExpr.unifyOpt : Option TypeExpr → Option TypeExpr → Comparison
  | none, none => pure ()
  | some t, some t' => t.unify t'
  | _, _ => failure
termination_by structural x => x

def TypeExpr.unifyAll : List TypeExpr → List TypeExpr → Comparison
  | [], [] => pure ()
  | t :: ts, t' :: ts' => do
    t.unify t'
    TypeExpr.unifyAll ts ts'
  | _, _ => failure
termination_by structural x => x

def Field.unify : Field → Field → Comparison
  | ⟨_, names, type, tag, _⟩, other => do
    identLists names other.names
    type.unify other.type
    opt literals tag other.tag
termination_by structural x => x

def Field.unifyAll : List Field → List Field → Comparison
  | [], [] => pure ()
  | f :: fs, f' :: fs' => do
    f.unify f'
    Field.unifyAll fs fs'
  | _, _ => failure
termination_by structural x => x

def FieldList.unify : FieldList → FieldList → Comparison
  | ⟨_, fields⟩, other => Field.unifyAll fields other.fields
termination_by structural x => x

def FieldList.unifyOpt : Option FieldList → Option FieldList → Comparison
  | none, none => pure ()
  | some fields, some fields' => fields.unify fields'
  | _, _ => failure
termination_by structural x => x

def Signature.unify : Signature → Signature → Comparison
  | ⟨params, results⟩, other => do
    params.unify other.params
    FieldList.unifyOpt results other.results
termination_by structural x => x

def Block.unify : Block → Block → Comparison
  | ⟨_, stmts, _⟩, other => Stmt.unifyAll stmts other.stmts
termination_by structural x => x

def Stmt.unify : Stmt → Stmt → Comparison
  | .decl d, other =>
    match other with
    | .decl d' => d.unify d'
    | _ => failure
  | .empty _, other =>
    match other with
    | .empty _ => pure ()
    | _ => failure
  | .labeled label _ stmt, other =>
    match other with
    | .labeled label' _ stmt' => do
      idents label label'
      stmt.unify stmt'
    | _ => failure
  | .expr e, other =>
    match other with
    | .expr e' => e.unify e'
    | _ => failure
  | .send chan _ value, other =>
    match other with
    | .send chan' _ value' => do
      chan.unify chan'
      value.unify value'
    | _ => failure
  | .incDec operand op _, other =>
    match other with
    | .incDec operand' op' _ => do
      operand.unify operand'
      check (op == op')
    | _ => failure
  | .assign lhs op _ rhs, other =>
    match other with
    | .assign lhs' op' _ rhs' => do
      Expr.unifyAll lhs lhs'
      check (op == op')
      Expr.unifyAll rhs rhs'
    | _ => failure
  | .go _ call, other =>
    match other with
    | .go _ call' => call.unify call'
    | _ => failure
  | .defer _ call, other =>
    match other with
    | .defer _ call' => call.unify call'
    | _ => failure
  | .returns _ results, other =>
    match other with
    | .returns _ results' => Expr.unifyAll results results'
    | _ => failure
  | .branch kind _ label, other =>
    match other with
    | .branch kind' _ label' => do
      check (kind == kind')
      opt idents label label'
    | _ => failure
  | .block b, other =>
    match other with
    | .block b' => b.unify b'
    | _ => failure
  | .ifElse _ init cond body orElse, other =>
    match other with
    | .ifElse _ init' cond' body' orElse' => do
      Stmt.unifyOpt init init'
      cond.unify cond'
      body.unify body'
      Stmt.unifyOpt orElse orElse'
    | _ => failure
  | .caseClause _ values _ body, other =>
    match other with
    | .caseClause _ values' _ body' => do
      Expr.unifyAll values values'
      Stmt.unifyAll body body'
    | _ => failure
  | .switch _ init tag body, other =>
    match other with
    | .switch _ init' tag' body' => do
      Stmt.unifyOpt init init'
      Expr.unifyOpt tag tag'
      body.unify body'
    | _ => failure
  | .typeSwitch _ init guarded body, other =>
    match other with
    | .typeSwitch _ init' guarded' body' => do
      Stmt.unifyOpt init init'
      guarded.unify guarded'
      body.unify body'
    | _ => failure
  | .commClause _ comm _ body, other =>
    match other with
    | .commClause _ comm' _ body' => do
      Stmt.unifyOpt comm comm'
      Stmt.unifyAll body body'
    | _ => failure
  | .select _ body, other =>
    match other with
    | .select _ body' => body.unify body'
    | _ => failure
  | .forLoop _ init cond post body, other =>
    match other with
    | .forLoop _ init' cond' post' body' => do
      Stmt.unifyOpt init init'
      Expr.unifyOpt cond cond'
      Stmt.unifyOpt post post'
      body.unify body'
    | _ => failure
  | .range _ key value op _ operand body, other =>
    match other with
    | .range _ key' value' op' _ operand' body' => do
      Expr.unifyOpt key key'
      Expr.unifyOpt value value'
      check (op.map (·.1) == op'.map (·.1))
      operand.unify operand'
      body.unify body'
    | _ => failure
termination_by structural x => x

def Stmt.unifyOpt : Option Stmt → Option Stmt → Comparison
  | none, none => pure ()
  | some s, some s' => s.unify s'
  | _, _ => failure
termination_by structural x => x

def Stmt.unifyAll : List Stmt → List Stmt → Comparison
  | [], [] => pure ()
  | s :: ss, s' :: ss' => do
    s.unify s'
    Stmt.unifyAll ss ss'
  | _, _ => failure
termination_by structural x => x

def GenDecl.unify : GenDecl → GenDecl → Comparison
  | ⟨_, _, kind, _, specs, _⟩, other => do
    check (kind == other.kind)
    Spec.unifyAll specs other.specs
termination_by structural x => x

def Spec.unify : Spec → Spec → Comparison
  | .importSpec spec, other =>
    match other with
    | .importSpec spec' => importSpecs spec spec'
    | _ => failure
  | .valueSpec _ names type _ values _, other =>
    match other with
    | .valueSpec _ names' type' _ values' _ => do
      identLists names names'
      TypeExpr.unifyOpt type type'
      Expr.unifyAll values values'
    | _ => failure
  | .typeSpec _ name typeParams _ type _, other =>
    match other with
    | .typeSpec _ name' typeParams' _ type' _ => do
      idents name name'
      FieldList.unifyOpt typeParams typeParams'
      type.unify type'
    | _ => failure
termination_by structural x => x

def Spec.unifyAll : List Spec → List Spec → Comparison
  | [], [] => pure ()
  | s :: ss, s' :: ss' => do
    s.unify s'
    Spec.unifyAll ss ss'
  | _, _ => failure

termination_by structural x => x
end

def FuncDecl.unify (a b : FuncDecl) : Comparison := do
  opt (FieldList.unify r) a.receiver b.receiver
  idents a.name b.name
  opt (FieldList.unify r) a.typeParams b.typeParams
  a.sig.unify r b.sig
  opt (Block.unify r) a.body b.body

def Decl.unify : Decl → Decl → Comparison
  | .gen a, .gen b => a.unify r b
  | .func a, .func b => a.unify r b
  | _, _ => failure

/-! ### Likeness -/

/-- Every name stands for itself. -/
def NameRule.plain : NameRule := fun _ => none

/-- Whether a comparison succeeds without bindings. -/
def Comparison.holds (c : Comparison) : Bool := (c []).isSome

/-- Whether two expressions differ at most in the places of their tokens and in comments. -/
def Expr.alike (a b : Expr) : Bool := (a.unify .plain b).holds

/-- Whether two types differ at most in the places of their tokens and in comments. -/
def TypeExpr.alike (a b : TypeExpr) : Bool := (a.unify .plain b).holds

/-- Whether two declarations differ at most in the places of their tokens and in comments. -/
def Decl.alike (a b : Decl) : Bool := (a.unify .plain b).holds

end GoLayout
