import GoLayout.Tree.Node
import Mathlib.Logic.Function.Basic

/-!
The constituents of a tree: its nodes, and the specs, field lists, blocks, names and literals in
them. Each has its parts, in the order of its fields. What holds of a constituent if it holds of its
parts holds of all; and the nodes in a constituent are itself, if it is one, and those of its parts.
-/

namespace GoLayout

/-- A node, or what else a tree has that takes up room in the source. -/
inductive Constituent where
  | node (node : Node)
  | spec (spec : Spec)
  | fields (list : FieldList)
  | block (block : Block)
  | name (name : Ident)
  | literal (lit : Literal)

namespace Constituent

def decl (d : GenDecl) : Constituent := .node (.decl d)

def stmt (s : Stmt) : Constituent := .node (.stmt s)

def expr (e : Expr) : Constituent := .node (.expr e)

def type (t : TypeExpr) : Constituent := .node (.type t)

def field (f : Field) : Constituent := .node (.field f)

def sig (s : Signature) : Constituent := .node (.sig s)

@[simp] theorem decl_inj {d d' : GenDecl} : decl d = decl d' ↔ d = d' := by simp [decl]

@[simp] theorem stmt_inj {s s' : Stmt} : stmt s = stmt s' ↔ s = s' := by simp [stmt]

@[simp] theorem expr_inj {e e' : Expr} : expr e = expr e' ↔ e = e' := by simp [expr]

@[simp] theorem type_inj {t t' : TypeExpr} : type t = type t' ↔ t = t' := by simp [type]

@[simp] theorem field_inj {f f' : Field} : field f = field f' ↔ f = f' := by simp [field]

@[simp] theorem sig_inj {s s' : Signature} : sig s = sig s' ↔ s = s' := by simp [sig]

/-! ### Parts

The constituents right below one, in the order of its fields. -/

def exprParts : Expr → List Constituent
  | .ident i => [name i]
  | .literal l => [literal l]
  | .func _ s body => [sig s, block body]
  | .composite t _ elements _ => t.toList.map type ++ elements.map expr
  | .paren _ inner _ => [expr inner]
  | .selector operand _ member => [expr operand, name member]
  | .index operand _ indices _ => expr operand :: indices.map expr
  | .slice operand _ lo hi max _ _ =>
    expr operand :: (lo.toList.map expr ++ hi.toList.map expr ++ max.toList.map expr)
  | .assertion operand _ _ t _ => expr operand :: t.toList.map type
  | .call fn _ args _ _ => expr fn :: args.map expr
  | .unary _ _ operand => [expr operand]
  | .binary left _ _ right => [expr left, expr right]
  | .keyValue key _ value => [expr key, expr value]
  | .type t => [type t]

def typeParts : TypeExpr → List Constituent
  | .named q i => q.toList.map (name ·.package) ++ [name i]
  | .generic q i _ args _ => q.toList.map (name ·.package) ++ name i :: args.map type
  | .pointer _ elem | .countedArray _ _ _ elem | .slice _ _ elem | .chan _ _ elem
  | .variadic _ elem => [type elem]
  | .array _ len _ elem => [expr len, type elem]
  | .map _ _ key _ value => [type key, type value]
  | .struct _ l | .interface _ l => [fields l]
  | .func _ s => [sig s]
  | .paren _ inner _ | .tilde _ inner => [type inner]
  | .union terms => terms.map type

def stmtParts : Stmt → List Constituent
  | .decl d => [decl d]
  | .empty _ => []
  | .labeled label _ s => [name label, stmt s]
  | .expr e => [expr e]
  | .send chan _ value => [expr chan, expr value]
  | .incDec operand _ _ => [expr operand]
  | .assign lhs _ _ rhs => lhs.map expr ++ rhs.map expr
  | .go _ call | .defer _ call => [expr call]
  | .returns _ results => results.map expr
  | .branch _ _ label => label.toList.map name
  | .block b => [block b]
  | .ifElse _ init cond body orElse =>
    init.toList.map stmt ++ expr cond :: block body :: orElse.toList.map stmt
  | .caseClause _ values _ body => values.map expr ++ body.map stmt
  | .switch _ init tag body => init.toList.map stmt ++ tag.toList.map expr ++ [block body]
  | .typeSwitch _ init guarded body => init.toList.map stmt ++ [stmt guarded, block body]
  | .commClause _ comm _ body => comm.toList.map stmt ++ body.map stmt
  | .select _ body => [block body]
  | .forLoop _ init cond post body =>
    init.toList.map stmt ++ cond.toList.map expr ++ post.toList.map stmt ++ [block body]
  | .range _ key value _ _ operand body =>
    key.toList.map expr ++ value.toList.map expr ++ [expr operand, block body]

def importNameParts : ImportName → List Constituent
  | .dot _ => []
  | .name id => [name id]

def specParts : Spec → List Constituent
  | .importSpec s => s.name.toList.flatMap importNameParts ++ [literal s.path]
  | .valueSpec _ names t _ values _ => names.map name ++ t.toList.map type ++ values.map expr
  | .typeSpec _ i typeParams _ t _ => name i :: (typeParams.toList.map fields ++ [type t])

def funcParts (f : FuncDecl) : List Constituent :=
  f.receiver.toList.map fields ++ name f.name ::
    (f.typeParams.toList.map fields ++ sig f.sig :: f.body.toList.map block)

def fieldParts (f : Field) : List Constituent :=
  f.names.map name ++ type f.type :: f.tag.toList.map literal

def sigParts (s : Signature) : List Constituent := fields s.params :: s.results.toList.map fields

def parts : Constituent → List Constituent
  | .node (.decl d) => d.specs.map spec
  | .node (.func f) => funcParts f
  | .node (.stmt s) => stmtParts s
  | .node (.expr e) => exprParts e
  | .node (.type t) => typeParts t
  | .node (.field f) => fieldParts f
  | .node (.sig s) => sigParts s
  | .spec s => specParts s
  | .fields l => l.fields.map field
  | .block b => b.stmts.map stmt
  | .name _ | .literal _ => []

/-! ### Nodes -/

/-- The nodes in a constituent, itself included. -/
def nodes : Constituent → List Node
  | .node (.decl d) => d.nodes
  | .node (.func f) => f.nodes
  | .node (.stmt s) => s.nodes
  | .node (.expr e) => e.nodes
  | .node (.type t) => t.nodes
  | .node (.field f) => f.nodes
  | .node (.sig s) => s.nodes
  | .spec s => s.nodes
  | .fields l => l.nodes
  | .block b => b.nodes
  | .name _ | .literal _ => []

/-- The node that a constituent is. -/
def own : Constituent → List Node
  | .node m => [m]
  | _ => []

@[simp] theorem nodes_exprs (es : List Expr) : (es.map expr).flatMap nodes = Expr.nodesAll es := by
  induction es with
  | nil => rfl
  | cons e es ih => rw [List.map_cons, List.flatMap_cons, ih]; rfl

@[simp] theorem nodes_types (ts : List TypeExpr) :
    (ts.map type).flatMap nodes = TypeExpr.nodesAll ts := by
  induction ts with
  | nil => rfl
  | cons t ts ih => rw [List.map_cons, List.flatMap_cons, ih]; rfl

@[simp] theorem nodes_stmts (ss : List Stmt) : (ss.map stmt).flatMap nodes = Stmt.nodesAll ss := by
  induction ss with
  | nil => rfl
  | cons s ss ih => rw [List.map_cons, List.flatMap_cons, ih]; rfl

@[simp] theorem nodes_fields (fs : List Field) :
    (fs.map field).flatMap nodes = Field.nodesAll fs := by
  induction fs with
  | nil => rfl
  | cons f fs ih => rw [List.map_cons, List.flatMap_cons, ih]; rfl

@[simp] theorem nodes_specs (ss : List Spec) : (ss.map spec).flatMap nodes = Spec.nodesAll ss := by
  induction ss with
  | nil => rfl
  | cons s ss ih => rw [List.map_cons, List.flatMap_cons, ih]; rfl

@[simp] theorem nodes_names (is : List Ident) : (is.map name).flatMap nodes = [] := by
  simp [List.flatMap_map, nodes]

@[simp] theorem nodes_literals (ls : List Literal) : (ls.map literal).flatMap nodes = [] := by
  simp [List.flatMap_map, nodes]

@[simp] theorem nodes_field (f : Field) : (field f).nodes = f.nodes := rfl

@[simp] theorem nodes_name (i : Ident) : (name i).nodes = [] := rfl

@[simp] theorem nodes_literal (l : Literal) : (literal l).nodes = [] := rfl

@[simp] theorem nodes_expr (e : Expr) : (expr e).nodes = e.nodes := rfl

@[simp] theorem nodes_type (t : TypeExpr) : (type t).nodes = t.nodes := rfl

@[simp] theorem nodes_stmt (s : Stmt) : (stmt s).nodes = s.nodes := rfl

@[simp] theorem nodes_decl (d : GenDecl) : (decl d).nodes = d.nodes := rfl

@[simp] theorem nodes_sig (s : Signature) : (sig s).nodes = s.nodes := rfl

@[simp] theorem nodes_block (b : Block) : (block b).nodes = b.nodes := rfl

@[simp] theorem nodes_list (l : FieldList) : (fields l).nodes = l.nodes := rfl

@[simp] theorem nodesAll_exprOpt (o : Option Expr) : Expr.nodesAll o.toList = Expr.nodesOpt o := by
  cases o <;> simp [Expr.nodesAll, Expr.nodesOpt]

@[simp] theorem nodesAll_typeOpt (o : Option TypeExpr) :
    TypeExpr.nodesAll o.toList = TypeExpr.nodesOpt o := by
  cases o <;> simp [TypeExpr.nodesAll, TypeExpr.nodesOpt]

@[simp] theorem nodesAll_stmtOpt (o : Option Stmt) : Stmt.nodesAll o.toList = Stmt.nodesOpt o := by
  cases o <;> simp [Stmt.nodesAll, Stmt.nodesOpt]

@[simp] theorem nodes_listOpt (o : Option FieldList) :
    (o.toList.map fields).flatMap nodes = FieldList.nodesOpt o := by
  cases o <;> simp [FieldList.nodesOpt]

@[simp] theorem nodes_blockOpt (o : Option Block) :
    (o.toList.map block).flatMap nodes = (o.map (·.nodes)).getD [] := by
  cases o <;> simp

/-! The nodes below a constituent are those of its parts. -/

theorem nodes_exprParts (e : Expr) : e.nodes = Node.expr e :: (exprParts e).flatMap nodes := by
  cases e <;> simp [Expr.nodes, exprParts]

theorem nodes_typeParts (t : TypeExpr) : t.nodes = Node.type t :: (typeParts t).flatMap nodes := by
  cases t with
  | named q _ | generic q _ _ _ _ => cases q <;> simp [TypeExpr.nodes, typeParts]
  | _ => simp [TypeExpr.nodes, typeParts]

theorem nodes_stmtParts (s : Stmt) : s.nodes = Node.stmt s :: (stmtParts s).flatMap nodes := by
  cases s <;> simp [Stmt.nodes, stmtParts]

theorem nodes_specParts (s : Spec) : s.nodes = (specParts s).flatMap nodes := by
  cases s with
  | importSpec s =>
    obtain ⟨_, name, _, _⟩ := s
    rcases name with _ | _ | _ <;> simp [Spec.nodes, specParts, importNameParts]
  | _ => simp [Spec.nodes, specParts]

theorem nodes_funcParts (f : FuncDecl) : f.nodes = .func f :: (funcParts f).flatMap nodes := by
  simp [FuncDecl.nodes, funcParts]

theorem nodes_fieldParts (f : Field) : f.nodes = .field f :: (fieldParts f).flatMap nodes := by
  cases f
  simp [Field.nodes, fieldParts]

theorem nodes_sigParts (s : Signature) : s.nodes = .sig s :: (sigParts s).flatMap nodes := by
  cases s
  simp [Signature.nodes, sigParts]

theorem nodes_eq : ∀ c : Constituent, c.nodes = c.own ++ c.parts.flatMap nodes
  | .node (.decl ⟨_, _, _, _, specs, _⟩) => by simp [nodes, own, parts, GenDecl.nodes]
  | .node (.func f) => nodes_funcParts f
  | .node (.stmt s) => nodes_stmtParts s
  | .node (.expr e) => nodes_exprParts e
  | .node (.type t) => nodes_typeParts t
  | .node (.field f) => nodes_fieldParts f
  | .node (.sig s) => nodes_sigParts s
  | .spec s => nodes_specParts s
  | .fields ⟨_, _⟩ => by simp [nodes, own, parts, FieldList.nodes]
  | .block ⟨_, _, _⟩ => by simp [nodes, own, parts, Block.nodes]
  | .name _ => rfl
  | .literal _ => rfl

/-! ### Induction over parts -/

/-- Constituents that are no nodes stand between nodes, names and literals. -/
def rank : Constituent → Nat
  | .spec _ => 2
  | .fields _ | .block _ => 1
  | .node _ | .name _ | .literal _ => 0

theorem rank_specParts (s : Spec) : ∀ p ∈ specParts s, p.rank < 2 := by
  cases s with
  | importSpec s =>
    obtain ⟨_, name, _, _⟩ := s
    rcases name with _ | _ | _ <;> simp [specParts, importNameParts, rank]
  | _ => simp [specParts, rank, type, expr, or_imp, forall_and]

theorem rank_lt {c p : Constituent} (bare : c.own = []) (mem : p ∈ c.parts) : p.rank < c.rank := by
  cases c with
  | node m => cases bare
  | spec s => exact rank_specParts s p mem
  | fields l =>
    obtain ⟨f, -, rfl⟩ := List.mem_map.mp mem
    exact Nat.zero_lt_one
  | block b =>
    obtain ⟨s, -, rfl⟩ := List.mem_map.mp mem
    exact Nat.zero_lt_one
  | name i => cases mem
  | literal l => cases mem

/-- A part has fewer nodes than what it is a part of, or as many and a lower rank. -/
theorem smaller_of_mem {c p : Constituent} (mem : p ∈ c.parts) :
    Prod.Lex (· < ·) (· < ·) (p.nodes.length, p.rank) (c.nodes.length, c.rank) := by
  obtain ⟨before, behind, parts⟩ := List.append_of_mem mem
  have count := congrArg List.length c.nodes_eq
  simp only [parts, List.flatMap_append, List.flatMap_cons, List.length_append] at count
  rw [Prod.lex_def]
  rcases Nat.eq_zero_or_pos c.own.length with bare | counted
  · have lower := rank_lt (List.eq_nil_of_length_eq_zero bare) mem
    dsimp only
    omega
  · dsimp only
    omega

/-- What a constituent has if all of its parts have it, all constituents have. -/
theorem of_parts {P : Constituent → Prop} (step : ∀ c, (∀ p ∈ c.parts, P p) → P c) (c : Constituent) :
    P c :=
  step c fun p _ => of_parts step p
termination_by (c.nodes.length, c.rank)
decreasing_by exact smaller_of_mem ‹_›

end Constituent

/-! ### Files -/

def Decl.toConstituent : Decl → Constituent
  | .gen d => .decl d
  | .func f => .node (.func f)

theorem Decl.toConstituent_injective : Function.Injective Decl.toConstituent := by
  intro d d' same
  cases d <;> cases d' <;> cases same <;> rfl

theorem Decl.nodes_toConstituent (d : Decl) : d.toConstituent.nodes = d.nodes := by
  cases d <;> rfl

/-- The constituents at the top of a file. -/
def SourceFile.tops (f : SourceFile) : List Constituent := f.decls.map Decl.toConstituent

/-- The constituents of a file: its declarations, and the parts of what it has. -/
inductive SourceFile.Has (f : SourceFile) : Constituent → Prop
  | top {c : Constituent} (mem : c ∈ f.tops) : f.Has c
  | part {c p : Constituent} (here : f.Has c) (mem : p ∈ c.parts) : f.Has p

namespace SourceFile

variable {f : SourceFile} {c : Constituent}

theorem nodes_tops (f : SourceFile) : f.tops.flatMap Constituent.nodes = f.nodes := by
  rw [tops, nodes, List.flatMap_map]
  congr 1
  exact funext Decl.nodes_toConstituent

theorem Has.nodes (h : f.Has c) : ∀ m ∈ c.nodes, f.Has (.node m) := by
  induction c using Constituent.of_parts with
  | step c ih =>
    intro m mem
    rw [c.nodes_eq] at mem
    rcases List.mem_append.mp mem with own | below
    · cases c with
      | node n =>
        rw [List.mem_singleton.mp own]
        exact h
      | _ => cases own
    · obtain ⟨p, part, mem⟩ := List.mem_flatMap.mp below
      exact ih p part (h.part part) m mem

theorem Has.nodes_subset (h : f.Has c) : c.nodes ⊆ f.nodes := by
  induction h with
  | top mem =>
    rw [← f.nodes_tops]
    exact fun m below => List.mem_flatMap.mpr ⟨_, mem, below⟩
  | @part c p _ mem ih =>
    refine fun m below => ih ?_
    rw [c.nodes_eq]
    exact List.mem_append_right _ (List.mem_flatMap.mpr ⟨p, mem, below⟩)

/-- The nodes of a file are the nodes among its constituents. -/
theorem has_node_iff {m : Node} : f.Has (.node m) ↔ m ∈ f.nodes := by
  constructor
  · intro h
    refine h.nodes_subset ?_
    rw [Constituent.nodes_eq]
    exact List.mem_append_left _ (List.mem_singleton.mpr rfl)
  · intro mem
    rw [← f.nodes_tops] at mem
    obtain ⟨c, top, mem⟩ := List.mem_flatMap.mp mem
    exact (Has.top top).nodes m mem

end SourceFile

end GoLayout
