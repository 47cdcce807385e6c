import GoLayout.Grammar.Expr
import GoLayout.Tree.Node
import Mathlib.Data.List.Chain

/-!
Where a tree has less room than its source may have words. A statement that keeps one expression is
read behind a list of them, and a type keeps the arguments in the last of several brackets. In both
cases two neighbouring tokens tell: the expression has a comma behind it, or the brackets have
another closing one before them.
-/

namespace GoLayout

/-- Whether an expression ends with brackets, or is a type that may end with some: brackets behind
it are not the first ones. -/
def Expr.isClosed : Expr → Bool
  | .index _ _ _ _ | .paren _ _ _ => true
  | .type t => t.baseName?.isSome
  | _ => false

/-- A place in a tree where words may be left out, or where some may have been. -/
inductive Room where
  /-- For one expression, which stops here. -/
  | one (stop : Nat)
  /-- For the arguments of a type in one pair of brackets. -/
  | arguments (lbrack : Span)
  /-- Brackets behind a closing one. -/
  | behind (lbrack : Span)
deriving DecidableEq, Repr

namespace Room

/-- Two neighbouring tokens with nothing left out between them. -/
def Between : Room → Token → Token → Prop
  | .one stop, t, next => t.span.stop = stop → next.kind ≠ .mark .comma
  | .arguments lbrack, t, next =>
    next.span = lbrack → t.kind ≠ .mark .rbrack ∧ t.kind ≠ .mark .rparen
  | .behind _, _, _ => True

instance : ∀ (r : Room) (t next : Token), Decidable (r.Between t next)
  | .one stop, t, next =>
    inferInstanceAs (Decidable (t.span.stop = stop → next.kind ≠ .mark .comma))
  | .arguments lbrack, t, next => inferInstanceAs (Decidable
      (next.span = lbrack → t.kind ≠ .mark .rbrack ∧ t.kind ≠ .mark .rparen))
  | .behind _, _, _ => inferInstanceAs (Decidable True)

/-- The source has no more than there is room for. -/
def Fits (r : Room) (ts : List Token) : Prop := ts.IsChain r.Between

instance (r : Room) (ts : List Token) : Decidable (r.Fits ts) :=
  inferInstanceAs (Decidable (ts.IsChain r.Between))

/-- Brackets behind a closing one do not fit as arguments. -/
def Held (ts : List Token) : Room → Prop
  | .behind lbrack => ¬ (Room.arguments lbrack).Fits ts
  | .one _ | .arguments _ => True

variable {r : Room} {ts ts' : List Token} {t next : Token}

theorem Fits.of_append (h : r.Fits (ts ++ ts')) : r.Fits ts := List.IsChain.left_of_append h

theorem Fits.between (h : r.Fits (ts ++ [next])) (last : t ∈ ts.getLast?) : r.Between t next :=
  (List.isChain_append.mp h).2.2 t last next rfl

theorem Held.append (h : r.Held ts) : r.Held (ts ++ ts') := by
  cases r with
  | behind lbrack => exact fun fits => h fits.of_append
  | one stop => trivial
  | arguments lbrack => trivial

end Room

/-- Each item but the last one has a comma behind it. -/
def Crowded {α : Type} (stop : α → Nat) (as : List α) (ts : List Token) : Prop :=
  ∀ a ∈ as.dropLast, ¬ (Room.one (stop a)).Fits ts

namespace Crowded

variable {α : Type} {stop : α → Nat} {a : α} {as : List α} {ts ts' : List Token}

theorem single : Crowded stop [a] ts := nofun

theorem cons (misfit : ¬ (Room.one (stop a)).Fits ts) (rest : Crowded stop as ts) :
    Crowded stop (a :: as) ts := by
  cases as with
  | nil => exact single
  | cons b bs => exact List.forall_mem_cons.mpr ⟨misfit, rest⟩

theorem append (h : Crowded stop as ts) : Crowded stop as (ts ++ ts') :=
  fun a mem fits => h a mem fits.of_append

end Crowded

@[simp]
def Stmt.room? : Stmt → Option Room
  | .expr e => some (.one e.stop)
  | .send chan _ _ => some (.one chan.stop)
  | .incDec operand _ _ => some (.one operand.stop)
  | .labeled label _ _ => some (.one label.span.stop)
  | .ifElse _ _ cond _ _ => some (.one cond.stop)
  | .switch _ _ tag _ => tag.map (.one ·.stop)
  | .forLoop _ _ cond _ _ => cond.map (.one ·.stop)
  | .range _ _ value _ _ _ _ => value.map (.one ·.stop)
  | _ => none

@[simp]
def Node.room? : Node → Option Room
  | .stmt s => s.room?
  | .type (.generic _ _ lbrack _ _) => some (.arguments lbrack)
  | .expr (.index operand lbrack _ _) => if operand.isClosed then some (.behind lbrack) else none
  | _ => none

def rooms (ns : List Node) : List Room := ns.filterMap Node.room?

@[simp] theorem rooms_nil : rooms [] = [] := rfl

@[simp] theorem rooms_cons (n : Node) (ns : List Node) :
    rooms (n :: ns) = n.room?.toList ++ rooms ns := by
  rw [rooms, List.filterMap_cons]
  cases n.room? <;> rfl

@[simp] theorem rooms_append (ns ns' : List Node) : rooms (ns ++ ns') = rooms ns ++ rooms ns' :=
  List.filterMap_append

@[simp] theorem rooms_flatMap {α : Type} (as : List α) (N : α → List Node) :
    rooms (as.flatMap N) = as.flatMap fun a => rooms (N a) := List.filterMap_flatMap

theorem Expr.nodesAll_eq_flatMap (es : List Expr) : Expr.nodesAll es = es.flatMap Expr.nodes := by
  induction es with
  | nil => rfl
  | cons e es ih => rw [nodesAll, ih, List.flatMap_cons]

theorem TypeExpr.nodesAll_eq_flatMap (ts : List TypeExpr) :
    TypeExpr.nodesAll ts = ts.flatMap TypeExpr.nodes := by
  induction ts with
  | nil => rfl
  | cons t ts ih => rw [nodesAll, ih, List.flatMap_cons]

theorem Field.nodesAll_eq_flatMap (fs : List Field) :
    Field.nodesAll fs = fs.flatMap Field.nodes := by
  induction fs with
  | nil => rfl
  | cons f fs ih => rw [nodesAll, ih, List.flatMap_cons]

theorem Stmt.nodesAll_eq_flatMap (ss : List Stmt) : Stmt.nodesAll ss = ss.flatMap Stmt.nodes := by
  induction ss with
  | nil => rfl
  | cons s ss ih => rw [nodesAll, ih, List.flatMap_cons]

theorem Spec.nodesAll_eq_flatMap (ss : List Spec) : Spec.nodesAll ss = ss.flatMap Spec.nodes := by
  induction ss with
  | nil => rfl
  | cons s ss ih => rw [nodesAll, ih, List.flatMap_cons]

end GoLayout
