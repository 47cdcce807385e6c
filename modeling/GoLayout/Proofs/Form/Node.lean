import GoLayout.Proofs.Form.Reader
import GoLayout.Tree.Node

/-!
The form of the nodes of a tree as they are read. An expression stands in a role, which tells how
its operators group; the header of a control statement has no literal in the open whose brace could
be that of the body; the group linked to an entry is the one behind the end of the entry; and a range is
assigned only if it has variables.
-/

namespace GoLayout

open Grammar (Tape)

/-! ### Roles of expressions -/

/-- Where an expression stands. -/
inductive Role where
  | leftOf (op : BinaryOp)
  | rightOf (op : BinaryOp)
  /-- Behind a unary operator. -/
  | prefixed
  /-- In front of a selector, brackets or a type assertion. -/
  | operand
  /-- Between the braces of a literal. -/
  | element
  /-- Before or behind the colon of an element. -/
  | side
  | free
deriving DecidableEq, Repr

namespace Expr

/-- The operator at the top of an expression. -/
def operator? : Expr → Option BinaryOp
  | .binary _ op _ _ => some op
  | _ => none

def isKeyValue : Expr → Bool
  | .keyValue _ _ _ => true
  | _ => false

/-- Whether an expression may stand anywhere: neither a key with its value nor braces alone. -/
def isPlain : Expr → Bool
  | .keyValue _ _ _ | .composite none _ _ _ => false
  | _ => true

/-- Whether an expression may have suffixes. -/
def isOperand : Expr → Bool
  | .unary _ _ _ | .binary _ _ _ _ | .keyValue _ _ _ | .composite none _ _ _ => false
  | _ => true

theorem isPlain_of_isOperand {e : Expr} (h : e.isOperand) : e.isPlain := by
  cases e with
  | composite type lbrace elements rbrace =>
    cases type with
    | none => cases h
    | some t => rfl
  | keyValue key colon value => cases h
  | _ => rfl

theorem operator?_of_isOperand {e : Expr} (h : e.isOperand) : e.operator? = none := by
  cases e with
  | binary left op opPos right => cases h
  | _ => rfl

end Expr

/-- What an expression in a role is like. -/
def Role.Admits : Role → Expr → Prop
  | .leftOf op, e => e.isPlain ∧ ∀ o ∈ e.operator?, op.precedence ≤ o.precedence
  | .rightOf op, e => e.isPlain ∧ ∀ o ∈ e.operator?, op.precedence < o.precedence
  | .prefixed, e => e.isPlain ∧ e.operator? = none
  | .operand, e => e.isOperand
  | .element, _ => True
  | .side, e => ¬ e.isKeyValue
  | .free, e => e.isPlain

/-- The values of a spec. -/
def Spec.values : Spec → List Expr
  | .valueSpec _ _ _ _ values _ => values
  | .importSpec _ | .typeSpec _ _ _ _ _ _ => []

/-- The expressions of a statement, but for those in its statements. -/
def Stmt.exprs : Stmt → List Expr
  | .expr e => [e]
  | .send chan _ value => [chan, value]
  | .incDec operand _ _ => [operand]
  | .assign lhs _ _ rhs => lhs ++ rhs
  | .go _ call | .defer _ call => [call]
  | .returns _ results => results
  | .ifElse _ _ cond _ _ => [cond]
  | .caseClause _ values _ _ => values
  | .switch _ _ tag _ => tag.toList
  | .forLoop _ _ cond _ _ => cond.toList
  | .range _ key value _ _ operand _ => key.toList ++ value.toList ++ [operand]
  | .decl _ | .empty _ | .labeled _ _ _ | .branch _ _ _ | .block _ | .typeSwitch _ _ _ _
  | .commClause _ _ _ _ | .select _ _ => []

/-- The expressions right below a node, each with its role. -/
def Node.parts : Node → List (Role × Expr)
  | .expr (.composite _ _ elements _) => elements.map (Prod.mk .element)
  | .expr (.paren _ inner _) => [(.free, inner)]
  | .expr (.selector operand _ _) => [(.operand, operand)]
  | .expr (.index operand _ indices _) => (.operand, operand) :: indices.map (Prod.mk .free)
  | .expr (.slice operand _ lo hi max _ _) =>
    (.operand, operand) :: (lo.toList ++ hi.toList ++ max.toList).map (Prod.mk .free)
  | .expr (.assertion operand _ _ _ _) => [(.operand, operand)]
  | .expr (.call fn _ args _ _) => (.operand, fn) :: args.map (Prod.mk .free)
  | .expr (.unary _ _ operand) => [(.prefixed, operand)]
  | .expr (.binary left op _ right) => [(.leftOf op, left), (.rightOf op, right)]
  | .expr (.keyValue key _ value) => [(.side, key), (.side, value)]
  | .expr (.ident _) | .expr (.literal _) | .expr (.func _ _ _) | .expr (.type _) => []
  | .type (.array _ len _ _) => [(.free, len)]
  | .decl d => (d.specs.flatMap Spec.values).map (Prod.mk .free)
  | .stmt s => s.exprs.map (Prod.mk .free)
  | .type _ | .func _ | .field _ | .sig _ => []

/-- Each of the expressions is as its role asks. -/
def Admitted (parts : List (Role × Expr)) : Prop := ∀ p ∈ parts, p.1.Admits p.2

namespace Admitted

variable {role : Role} {e : Expr} {es : List Expr} {parts : List (Role × Expr)}

theorem nil : Admitted [] := by simp [Admitted]

theorem cons (here : role.Admits e) (rest : Admitted parts) : Admitted ((role, e) :: parts) :=
  List.forall_mem_cons.mpr ⟨here, rest⟩

theorem one (here : role.Admits e) : Admitted [(role, e)] := cons here nil

theorem each (h : ∀ e ∈ es, role.Admits e) : Admitted (es.map (Prod.mk role)) :=
  List.forall_mem_map.mpr h

end Admitted

/-! ### Headers of control statements -/

/-- Whether a type is a name, with or without type arguments, in any number of parentheses. -/
def TypeExpr.spellsName : TypeExpr → Bool
  | .named _ _ | .generic _ _ _ _ _ => true
  | .paren _ inner _ => inner.spellsName
  | _ => false

namespace Expr

/-- Whether an expression is a literal in braces behind the name of a type. -/
def isNamedLiteral : Expr → Bool
  | .composite (some t) _ _ _ => t.spellsName
  | _ => false

/-- The expressions in an expression, itself included, that are in the open: not between
parentheses, brackets or braces, in a type or in a function. -/
def exposed : Expr → List Expr
  | .selector operand dot member => .selector operand dot member :: operand.exposed
  | .index operand lbrack indices rbrack => .index operand lbrack indices rbrack :: operand.exposed
  | .slice operand lbrack lo hi max full rbrack =>
    .slice operand lbrack lo hi max full rbrack :: operand.exposed
  | .assertion operand dot lparen t rparen =>
    .assertion operand dot lparen t rparen :: operand.exposed
  | .call fn lparen args spread rparen => .call fn lparen args spread rparen :: fn.exposed
  | .unary op opPos operand => .unary op opPos operand :: operand.exposed
  | .binary left op opPos right => .binary left op opPos right :: (left.exposed ++ right.exposed)
  | .keyValue key colon value => .keyValue key colon value :: (key.exposed ++ value.exposed)
  | .ident name => [.ident name]
  | .literal lit => [.literal lit]
  | .func funcPos sig body => [.func funcPos sig body]
  | .composite t lbrace elements rbrace => [.composite t lbrace elements rbrace]
  | .paren lparen inner rparen => [.paren lparen inner rparen]
  | .type t => [.type t]

/-- The nodes in an expression that are not in the open. -/
def sheltered : Expr → List Node
  | .selector operand _ _ => operand.sheltered
  | .index operand _ indices _ => operand.sheltered ++ Expr.nodesAll indices
  | .slice operand _ lo hi max _ _ =>
    operand.sheltered ++ Expr.nodesOpt lo ++ Expr.nodesOpt hi ++ Expr.nodesOpt max
  | .assertion operand _ _ t _ => operand.sheltered ++ TypeExpr.nodesOpt t
  | .call fn _ args _ _ => fn.sheltered ++ Expr.nodesAll args
  | .unary _ _ operand => operand.sheltered
  | .binary left _ _ right => left.sheltered ++ right.sheltered
  | .keyValue key _ value => key.sheltered ++ value.sheltered
  | .ident _ | .literal _ => []
  | .func _ sig body => sig.nodes ++ body.nodes
  | .composite t _ elements _ => TypeExpr.nodesOpt t ++ Expr.nodesAll elements
  | .paren _ inner _ => inner.nodes
  | .type t => t.nodes

/-- Every node of an expression is in the open or sheltered. -/
theorem exposed_or_sheltered {m : Node} {e : Expr} (mem : m ∈ e.nodes) :
    (∃ x ∈ e.exposed, m = .expr x) ∨ m ∈ e.sheltered := by
  fun_induction exposed e
  all_goals
    rcases List.mem_cons.mp mem with same | below
    · exact .inl ⟨_, List.mem_cons_self, same⟩
    · simp only [sheltered, List.mem_cons, List.mem_append] at below ⊢
      grind

/-- No literal behind the name of a type is in the open. -/
def Guarded (e : Expr) : Prop := ∀ x ∈ e.exposed, ¬ x.isNamedLiteral

end Expr

/-- The expressions of a simple statement are guarded. Other statements are not part of a header. -/
def Stmt.Guarded : Stmt → Prop
  | .expr e => e.Guarded
  | .send chan _ value => chan.Guarded ∧ value.Guarded
  | .incDec operand _ _ => operand.Guarded
  | .assign lhs _ _ rhs => ∀ e ∈ lhs ++ rhs, e.Guarded
  | _ => False

/-- A simple statement has nothing but its expressions. -/
theorem Stmt.Guarded.exprs {s : Stmt} (h : s.Guarded) : ∀ e ∈ s.exprs, e.Guarded := by
  cases s with
  | expr e => exact List.forall_mem_singleton.mpr h
  | send chan arrow value =>
    exact List.forall_mem_cons.mpr ⟨h.1, List.forall_mem_singleton.mpr h.2⟩
  | incDec operand op opPos => exact List.forall_mem_singleton.mpr h
  | assign lhs op opPos rhs => exact h
  | _ => exact h.elim

/-- What stands between the keyword and the body of a control statement. -/
def Stmt.heading : Stmt → List Stmt
  | .ifElse _ init cond _ _ => init.toList ++ [.expr cond]
  | .switch _ init tag _ => init.toList ++ tag.toList.map .expr
  | .typeSwitch _ init guarded _ => init.toList ++ [guarded]
  | .forLoop _ init cond post _ => init.toList ++ cond.toList.map .expr ++ post.toList
  | .range _ key value _ _ operand _ => (key.toList ++ value.toList ++ [operand]).map .expr
  | _ => []

def Node.heading : Node → List Stmt
  | .stmt s => s.heading
  | _ => []

/-! ### Entries with comments -/

/-- The group behind a spec. -/
def Spec.comment : Spec → Link
  | .importSpec spec => spec.comment
  | .valueSpec _ _ _ _ _ comment => comment
  | .typeSpec _ _ _ _ _ comment => comment

/-- The specs of a declaration and the members of a struct or an interface, each by where it stops
and the group linked to it. -/
def Node.entries : Node → List (Nat × Link)
  | .decl d => d.specs.map fun s => (s.stop, s.comment)
  | .type (.struct _ l) | .type (.interface _ l) => l.fields.map fun f => (f.stop, f.comment)
  | _ => []

/-! ### Nodes -/

/-- A range is assigned exactly if it has a variable to assign to. -/
def Node.Assigned : Node → Prop
  | .stmt (.range _ key _ op _ _ _) => op.isSome = key.isSome
  | _ => True

structure Node.Formed (tape : Tape) (m : Node) : Prop where
  parts : Admitted m.parts
  heading : ∀ s ∈ m.heading, s.Guarded
  entries : ∀ entry ∈ m.entries, tape.Linked entry.1 entry.2
  assigned : m.Assigned

/-- All of the nodes are formed. -/
def AllFormed (tape : Tape) (ms : List Node) : Prop := ∀ m ∈ ms, m.Formed tape

variable {tape : Tape}

namespace Node.Formed

/-- An expression has no header and no entries. -/
theorem expr {e : Expr} (parts : Admitted (Node.expr e).parts) : (Node.expr e).Formed tape where
  parts := parts
  heading := by simp [Node.heading]
  entries := by simp [Node.entries]
  assigned := trivial

theorem stmt {s : Stmt} (plain : ∀ e ∈ s.exprs, e.isPlain) (heading : ∀ h ∈ s.heading, h.Guarded)
    (assigned : (Node.stmt s).Assigned) : (Node.stmt s).Formed tape where
  parts := .each plain
  heading := heading
  entries := by simp [Node.entries]
  assigned := assigned

/-- The nodes that say nothing by themselves. A range has a heading. -/
theorem bare {m : Node} (parts : m.parts = []) (heading : m.heading = []) (entries : m.entries = []) :
    m.Formed tape where
  parts := parts ▸ .nil
  heading := by simp [heading]
  entries := by simp [entries]
  assigned := by
    unfold Node.Assigned
    split
    · simp [Node.heading, Stmt.heading] at heading
    · trivial

end Node.Formed

namespace AllFormed

variable {m : Node} {ms ms' : List Node}

theorem nil : AllFormed tape [] := by simp [AllFormed]

theorem node (here : m.Formed tape) (parts : AllFormed tape ms) : AllFormed tape (m :: ms) :=
  List.forall_mem_cons.mpr ⟨here, parts⟩

theorem append (first : AllFormed tape ms) (second : AllFormed tape ms') :
    AllFormed tape (ms ++ ms') :=
  List.forall_mem_append.mpr ⟨first, second⟩

theorem exprs : ∀ {es : List Expr}, (∀ e ∈ es, AllFormed tape e.nodes) →
    AllFormed tape (Expr.nodesAll es)
  | [], _ => nil
  | _ :: _, h => append (h _ List.mem_cons_self) (exprs fun e mem => h e (List.mem_cons_of_mem _ mem))

theorem exprOpt : ∀ {o : Option Expr}, (∀ e ∈ o, AllFormed tape e.nodes) →
    AllFormed tape (Expr.nodesOpt o)
  | none, _ => nil
  | some _, h => h _ rfl

theorem types : ∀ {ts : List TypeExpr}, (∀ t ∈ ts, AllFormed tape t.nodes) →
    AllFormed tape (TypeExpr.nodesAll ts)
  | [], _ => nil
  | _ :: _, h => append (h _ List.mem_cons_self) (types fun t mem => h t (List.mem_cons_of_mem _ mem))

theorem typeOpt : ∀ {o : Option TypeExpr}, (∀ t ∈ o, AllFormed tape t.nodes) →
    AllFormed tape (TypeExpr.nodesOpt o)
  | none, _ => nil
  | some _, h => h _ rfl

theorem fields : ∀ {fs : List Field}, (∀ f ∈ fs, AllFormed tape f.nodes) →
    AllFormed tape (Field.nodesAll fs)
  | [], _ => nil
  | _ :: _, h => append (h _ List.mem_cons_self) (fields fun f mem => h f (List.mem_cons_of_mem _ mem))

theorem listOpt : ∀ {o : Option FieldList}, (∀ l ∈ o, AllFormed tape l.nodes) →
    AllFormed tape (FieldList.nodesOpt o)
  | none, _ => nil
  | some _, h => h _ rfl

theorem stmtOpt : ∀ {o : Option Stmt}, (∀ s ∈ o, AllFormed tape s.nodes) →
    AllFormed tape (Stmt.nodesOpt o)
  | none, _ => nil
  | some _, h => h _ rfl

theorem stmts : ∀ {ss : List Stmt}, (∀ s ∈ ss, AllFormed tape s.nodes) →
    AllFormed tape (Stmt.nodesAll ss)
  | [], _ => nil
  | _ :: _, h => append (h _ List.mem_cons_self) (stmts fun s mem => h s (List.mem_cons_of_mem _ mem))

theorem specs : ∀ {ss : List Spec}, (∀ s ∈ ss, AllFormed tape s.nodes) →
    AllFormed tape (Spec.nodesAll ss)
  | [], _ => nil
  | _ :: _, h => append (h _ List.mem_cons_self) (specs fun s mem => h s (List.mem_cons_of_mem _ mem))

end AllFormed

end GoLayout
