import GoLayout.Grammar.File
import GoLayout.Proofs.Tree.Unify
import GoLayout.Tree.Node

/-!
Likeness of nodes of every kind. Two nodes are alike if and only if they have one shape, so
likeness is an equivalence, and a copy that only places tokens anew is like the original.
-/

namespace GoLayout

/-! ### Functions and declarations -/

def FuncDecl.shape (f : FuncDecl) : FuncDecl :=
  { doc := none
    funcPos := .zero
    receiver := f.receiver.map FieldList.shape
    name := f.name.shape
    typeParams := f.typeParams.map FieldList.shape
    sig := f.sig.shape
    body := f.body.map Block.shape }

theorem FieldList.shapeOpt_eq_map (o : Option FieldList) :
    FieldList.shapeOpt o = o.map FieldList.shape := by
  cases o <;> rfl

def Decl.shape : Decl → Decl
  | .gen d => .gen d.shape
  | .func f => .func f.shape

section Copies

variable {c : Copying} (plain : ∀ name, c.fill name = none)

include plain

theorem FuncDecl.shape_copy (f : FuncDecl) : (f.copy c).shape = f.shape := by
  simp [FuncDecl.copy, FuncDecl.shape, Function.comp_def, FieldList.shape_copy plain,
    Signature.shape_copy plain, Block.shape_copy plain]

theorem Decl.shape_copy (d : Decl) : (d.copy c).shape = d.shape := by
  cases d with
  | gen d => exact congrArg Decl.gen (d.shape_copy plain)
  | func f => exact congrArg Decl.func (f.shape_copy plain)

end Copies

section Comparisons

open Comparison

variable {r : NameRule} {c : Bindings → Copying}
  (names : ∀ name e, ((Expr.ident name).unify r e).Solves fun s =>
    ((Expr.ident name).copy (c s)).shape = e.shape)

include names

theorem FuncDecl.unify_solves (a b : FuncDecl) :
    (a.unify r b).Solves fun s => (a.copy (c s)).shape = b.shape := by
  have ofLists (x y : Option FieldList) := opt_solves (r := FieldList.unify r)
    (f := fun s l => (l.copy (c s)).shape) (g := FieldList.shape) (FieldList.unify_solves names) x y
  have ofBodies := opt_solves (r := Block.unify r) (f := fun s l => (l.copy (c s)).shape)
    (g := Block.shape) (Block.unify_solves names) a.body b.body
  have parts := (ofLists a.receiver b.receiver).andThen ((idents_solves a.name b.name).andThen
    ((ofLists a.typeParams b.typeParams).andThen
    ((Signature.unify_solves names a.sig b.sig).andThen ofBodies)))
  exact parts.congr fun s => by simp [FuncDecl.copy, FuncDecl.shape, Function.comp_def]

theorem Decl.unify_solves (a b : Decl) :
    (a.unify r b).Solves fun s => (a.copy (c s)).shape = b.shape := by
  cases a with
  | gen a =>
    cases b with
    | gen b => exact (a.unify_solves names b).congr fun s => by simp [Decl.copy, Decl.shape]
    | func b => exact .clash Decl.ctorIdx fun _ => rfl
  | func a =>
    cases b with
    | gen b => exact .clash Decl.ctorIdx fun _ => rfl
    | func b => exact (a.unify_solves names b).congr fun s => by simp [Decl.copy, Decl.shape]

end Comparisons

/-- Two declarations are alike if and only if they have one shape. -/
theorem Decl.alike_iff {a b : Decl} : a.alike b = true ↔ a.shape = b.shape := by
  have solves := Decl.unify_solves (c := fun _ => .stamp 0) Expr.unify_plain_ident a b
  have shape : (a.copy (.stamp 0)).shape = a.shape := Decl.shape_copy (fun _ => rfl) a
  rw [shape] at solves
  exact solves.holds_iff

/-- Two types are alike if and only if they have one shape. -/
theorem TypeExpr.alike_iff {a b : TypeExpr} : a.alike b = true ↔ a.shape = b.shape := by
  have solves := TypeExpr.unify_solves (c := fun _ => .stamp 0) Expr.unify_plain_ident a b
  have shape : (a.copy (.stamp 0)).shape = a.shape := TypeExpr.shape_copy (fun _ => rfl) a
  rw [shape] at solves
  exact solves.holds_iff

/-! ### Nodes -/

namespace Node

/-- Nodes of different kinds differ. -/
def unify (r : NameRule) : Node → Node → Comparison
  | .decl a, .decl b => a.unify r b
  | .func a, .func b => a.unify r b
  | .stmt a, .stmt b => a.unify r b
  | .expr a, .expr b => a.unify r b
  | .type a, .type b => a.unify r b
  | .field a, .field b => a.unify r b
  | .sig a, .sig b => a.unify r b
  | _, _ => failure

/-- Whether two nodes differ at most in the places of their tokens and in comments. -/
def alike (a b : Node) : Bool := (a.unify .plain b).holds

def copy (c : Copying) : Node → Node
  | .decl d => .decl (d.copy c)
  | .func f => .func (f.copy c)
  | .stmt s => .stmt (s.copy c)
  | .expr e => .expr (e.copy c)
  | .type t => .type (t.copy c)
  | .field f => .field (f.copy c)
  | .sig s => .sig (s.copy c)

/-- A copy with every token at `pos`. -/
def restamp (n : Node) (pos : Nat) : Node := n.copy (.stamp pos)

def shape : Node → Node
  | .decl d => .decl d.shape
  | .func f => .func f.shape
  | .stmt s => .stmt s.shape
  | .expr e => .expr e.shape
  | .type t => .type t.shape
  | .field f => .field f.shape
  | .sig s => .sig s.shape

theorem shape_copy {c : Copying} (plain : ∀ name, c.fill name = none) (n : Node) :
    (n.copy c).shape = n.shape := by
  cases n with
  | decl d => exact congrArg Node.decl (d.shape_copy plain)
  | func f => exact congrArg Node.func (f.shape_copy plain)
  | stmt s => exact congrArg Node.stmt (s.shape_copy plain)
  | expr e => exact congrArg Node.expr (e.shape_copy plain)
  | type t => exact congrArg Node.type (t.shape_copy plain)
  | field f => exact congrArg Node.field (f.shape_copy plain)
  | sig s => exact congrArg Node.sig (s.shape_copy plain)

theorem unify_solves {r : NameRule} {c : Bindings → Copying}
    (names : ∀ name e, ((Expr.ident name).unify r e).Solves fun s =>
      ((Expr.ident name).copy (c s)).shape = e.shape) (a b : Node) :
    (a.unify r b).Solves fun s => (a.copy (c s)).shape = b.shape := by
  cases a with
  | decl a =>
    cases b with
    | decl b => exact (a.unify_solves names b).congr fun s => by simp [copy, shape]
    | _ => exact .clash Node.ctorIdx fun _ => rfl
  | func a =>
    cases b with
    | func b => exact (a.unify_solves names b).congr fun s => by simp [copy, shape]
    | _ => exact .clash Node.ctorIdx fun _ => rfl
  | stmt a =>
    cases b with
    | stmt b => exact (a.unify_solves names b).congr fun s => by simp [copy, shape]
    | _ => exact .clash Node.ctorIdx fun _ => rfl
  | expr a =>
    cases b with
    | expr b => exact (a.unify_solves names b).congr fun s => by simp [copy, shape]
    | _ => exact .clash Node.ctorIdx fun _ => rfl
  | type a =>
    cases b with
    | type b => exact (a.unify_solves names b).congr fun s => by simp [copy, shape]
    | _ => exact .clash Node.ctorIdx fun _ => rfl
  | field a =>
    cases b with
    | field b => exact (a.unify_solves names b).congr fun s => by simp [copy, shape]
    | _ => exact .clash Node.ctorIdx fun _ => rfl
  | sig a =>
    cases b with
    | sig b => exact (a.unify_solves names b).congr fun s => by simp [copy, shape]
    | _ => exact .clash Node.ctorIdx fun _ => rfl

/-- Two nodes are alike if and only if they have one shape. -/
theorem alike_iff {a b : Node} : a.alike b = true ↔ a.shape = b.shape := by
  have solves := unify_solves (c := fun _ => .stamp 0) Expr.unify_plain_ident a b
  have shape : (a.copy (.stamp 0)).shape = a.shape := shape_copy (fun _ => rfl) a
  rw [shape] at solves
  exact solves.holds_iff

end Node

/-! ### What likeness leaves out

Of the tokens that a node may lack, the dots of a call and the equals sign of an alias tell programs
apart. The shape of a node has the dots, but not the equals sign. -/

/-- Whether a spec of a type makes an alias. -/
def Spec.alias? : Spec → Option Bool
  | .typeSpec _ _ _ assign _ _ => some assign.isSome
  | _ => none

/-- For each type that a declaration declares, at any depth, whether it is an alias. -/
def Decl.aliases (d : Decl) : List Bool :=
  d.nodes.flatMap fun
    | .decl d => d.specs.filterMap Spec.alias?
    | _ => []

/-- Declarations with one tree, places and comments aside, in which calls are spread and types are
aliases at the same places. -/
def Decl.SameTree (a b : Decl) : Prop := a.shape = b.shape ∧ a.aliases = b.aliases

/-- Declarations that are alike have the same tree if and only if they agree on what is an alias;
they agree on everything else. -/
theorem Decl.sameTree_iff_alike (a b : Decl) :
    a.SameTree b ↔ a.alike b = true ∧ a.aliases = b.aliases := by
  rw [SameTree, Decl.alike_iff]

/-- An alias is like the type that is declared in the same words. -/
theorem Decl.alike_not_sameTree :
    ¬ ∀ src f, SourceFile.parse src = .ok f →
      ∀ a ∈ f.decls, ∀ b ∈ f.decls, a.alike b = true → a.SameTree b := by
  intro tellsApart
  generalize source : SourceFile.parse "package p\n\ntype A = int\n\ntype A int\n" = parsed
  have found : (parsed.toOption.map fun f =>
      (f.decls.map Decl.aliases, f.decls.all fun a => f.decls.all a.alike)) =
      some ([[true], [false]], true) := by
    rw [← source]
    decide +kernel
  cases parsed with
  | error e => simp [Except.toOption] at found
  | ok f =>
    obtain ⟨aliases, alike⟩ := Prod.mk.inj (Option.some.inj found)
    obtain ⟨a, rest, decls, ofA, others⟩ := List.map_eq_cons_iff.mp aliases
    obtain ⟨b, none, rfl, ofB, -⟩ := List.map_eq_cons_iff.mp others
    have inA : a ∈ f.decls := by simp [decls]
    have inB : b ∈ f.decls := by simp [decls]
    have same := (tellsApart _ f source a inA b inB
      (List.all_eq_true.mp (List.all_eq_true.mp alike a inA) b inB)).2
    rw [ofA, ofB] at same
    exact absurd same (by decide)

end GoLayout
