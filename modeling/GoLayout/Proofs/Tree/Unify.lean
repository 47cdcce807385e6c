import GoLayout.Proofs.Tree.Shape
import GoLayout.Tree.Unify
import Mathlib.Logic.Basic

/-!
What a comparison of trees finds out. A comparison that binds names succeeds exactly where some
bindings fill in the left tree to the shape of the right one: those it leaves do, and it succeeds
whenever any do that agree with the bindings it starts from. Without names to bind this says that
two trees are alike if and only if they have one shape.
-/

namespace GoLayout

/-! ### Bindings -/

namespace Bindings

/-- The shape that a name stands for; a name that is not bound stands for itself. -/
def shapeOf (s : Bindings) (name : String) : Expr :=
  ((s.lookup name).getD (.ident ⟨name, .zero⟩)).shape

/-- Whatever `b` binds a name to has the shape that `s` gives to it. -/
def Covers (s b : Bindings) : Prop := ∀ name e, b.lookup name = some e → s.shapeOf name = e.shape

theorem covers_nil (s : Bindings) : s.Covers [] := by
  intro name e found
  simp at found

theorem covers_self (b : Bindings) : b.Covers b := by
  intro name e found
  rw [shapeOf, found, Option.getD_some]

/-- Bindings of further names are added at the end. -/
def Extends (b b' : Bindings) : Prop := ∃ new, b' = b ++ new ∧ ∀ p ∈ new, b.lookup p.1 = none

theorem Extends.refl (b : Bindings) : b.Extends b := ⟨[], (List.append_nil b).symm, by simp⟩

theorem Extends.trans {a b c : Bindings} (first : a.Extends b) (second : b.Extends c) :
    a.Extends c := by
  obtain ⟨new, rfl, unbound⟩ := first
  obtain ⟨new', rfl, unbound'⟩ := second
  refine ⟨new ++ new', List.append_assoc .., ?_⟩
  intro p mem
  rcases List.mem_append.mp mem with mem | mem
  · exact unbound p mem
  · have none := unbound' p mem
    rw [List.lookup_append, Option.or_eq_none_iff] at none
    exact none.1

/-- What is bound stays bound. -/
theorem Extends.lookup {b b' : Bindings} (h : b.Extends b') {name : String} {e : Expr}
    (found : b.lookup name = some e) : b'.lookup name = some e := by
  obtain ⟨new, rfl, -⟩ := h
  rw [List.lookup_append, found, Option.some_or]

theorem Covers.of_extends {s b b' : Bindings} (covers : s.Covers b') (h : b.Extends b') :
    s.Covers b := fun name e found => covers name e (h.lookup found)

end Bindings

/-! ### Comparisons and what they solve -/

/-- The comparison finds bindings for which `S` holds, wherever there are any. -/
structure Comparison.Solves (x : Comparison) (S : Bindings → Prop) : Prop where
  sound : ∀ {b b' : Bindings}, x b = some ((), b') → b.Extends b' ∧ ∀ s, s.Covers b' → S s
  complete : ∀ {b s : Bindings}, s.Covers b → S s → ∃ b', x b = some ((), b') ∧ s.Covers b'

namespace Comparison

variable {S T : Bindings → Prop} {x y : Comparison}

namespace Solves

theorem congr (h : x.Solves S) (same : ∀ s, S s ↔ T s) : x.Solves T where
  sound run := ⟨(h.sound run).1, fun s covers => (same s).mp ((h.sound run).2 s covers)⟩
  complete covers holds := h.complete covers ((same _).mpr holds)

theorem pure (h : ∀ s, S s) : Solves (Pure.pure () : Comparison) S where
  sound {b b'} run := by
    obtain rfl : b = b' := congrArg Prod.snd (Option.some.inj run)
    exact ⟨.refl b, fun s _ => h s⟩
  complete {b s} covers _ := ⟨b, rfl, covers⟩

theorem failure (h : ∀ s, ¬S s) : Solves (fun _ => none) S where
  sound run := nomatch run
  complete {_ s} _ holds := absurd holds (h s)

/-- Two trees of different kinds. -/
theorem clash {α : Type} {f : Bindings → α} {b : α} (kind : α → Nat)
    (differ : ∀ s, (kind (f s) == kind b) = false) : Solves (fun _ => none) fun s => f s = b :=
  .failure fun s same => by
    have := differ s
    simp [same] at this

theorem check {b : Bool} (h : ∀ s, S s ↔ b = true) : (check b).Solves S := by
  cases b with
  | true => exact .pure fun s => (h s).mpr rfl
  | false => exact .failure fun s holds => absurd ((h s).mp holds) (by simp)

theorem andThen (first : x.Solves S) (second : y.Solves T) :
    Solves (do x; y) fun s => S s ∧ T s where
  sound {b b'} run := by
    obtain ⟨⟨_, middle⟩, step, run⟩ := Option.bind_eq_some_iff.mp run
    obtain ⟨grows, holds⟩ := first.sound step
    obtain ⟨grows', holds'⟩ := second.sound run
    refine ⟨grows.trans grows', fun s covers => ⟨?_, holds' s covers⟩⟩
    exact holds s (covers.of_extends grows')
  complete {b s} covers both := by
    obtain ⟨middle, step, covers⟩ := first.complete covers both.1
    obtain ⟨b', run, covers⟩ := second.complete covers both.2
    refine ⟨b', ?_, covers⟩
    exact Option.bind_eq_some_iff.mpr ⟨((), middle), step, run⟩

end Solves

/-! ### Leaves -/

theorem same_solves {α : Type} [BEq α] [LawfulBEq α] (a b : α) :
    (check (a == b)).Solves fun _ => a = b := .check fun _ => beq_iff_eq.symm

theorem idents_solves (a b : Ident) : (idents a b).Solves fun _ => a.shape = b.shape := by
  refine .check fun s => ?_
  simp [Ident.shape]

theorem literals_solves (a b : Literal) : (literals a b).Solves fun _ => a.shape = b.shape := by
  refine .check fun s => ?_
  simp [Literal.shape]

theorem opt_solves {α : Type} {r : α → α → Comparison} {f : Bindings → α → α} {g : α → α}
    (each : ∀ a b, (r a b).Solves fun s => f s a = g b) (a b : Option α) :
    (opt r a b).Solves fun s => a.map (f s) = b.map g := by
  cases a with
  | none =>
    cases b with
    | none => exact .pure fun _ => rfl
    | some b => exact .failure fun _ same => by simp at same
  | some a =>
    cases b with
    | none => exact .failure fun _ same => by simp at same
    | some b => exact (each a b).congr fun s => by simp

theorem identLists_solves (as bs : List Ident) :
    (identLists as bs).Solves fun _ => as.map (·.shape) = bs.map (·.shape) := by
  fun_induction identLists as bs with
  | case1 => exact .pure fun _ => rfl
  | case2 a as b bs ih => exact ((idents_solves a b).andThen ih).congr fun s => by simp
  | case3 as bs notNil notCons =>
    refine .failure fun _ same => ?_
    cases as with
    | nil =>
      cases bs with
      | nil => exact notNil rfl rfl
      | cons b bs => simp at same
    | cons a as =>
      cases bs with
      | nil => simp at same
      | cons b bs => exact notCons a as b bs rfl rfl

theorem qualifiers_solves (a b : Option Qualifier) :
    (qualifiers a b).Solves fun _ => a.map (·.shape) = b.map (·.shape) := by
  refine opt_solves (f := fun _ => Qualifier.shape) (g := Qualifier.shape) (fun a b => ?_) a b
  exact (idents_solves a.package b.package).congr fun s => by simp [Qualifier.shape]

theorem chanDirs_solves (a b : ChanDir) : (chanDirs a b).Solves fun _ => a.shape = b.shape := by
  cases a <;> cases b
  all_goals first
    | exact .pure fun _ => rfl
    | exact .failure fun _ same => by simp [ChanDir.shape] at same

theorem importNames_solves (a b : ImportName) :
    (importNames a b).Solves fun _ => a.shape = b.shape := by
  cases a with
  | dot _ =>
    cases b with
    | dot _ => exact .pure fun _ => rfl
    | name _ => exact .failure fun _ same => by simp [ImportName.shape] at same
  | name a =>
    cases b with
    | dot _ => exact .failure fun _ same => by simp [ImportName.shape] at same
    | name b => exact (idents_solves a b).congr fun s => by simp [ImportName.shape]

theorem importSpecs_solves (a b : ImportSpec) :
    (importSpecs a b).Solves fun _ => a.shape = b.shape := by
  have names := opt_solves (f := fun _ => ImportName.shape) (g := ImportName.shape)
    importNames_solves a.name b.name
  exact (names.andThen (literals_solves a.path b.path)).congr fun s => by simp [ImportSpec.shape]

theorem spread_solves {c : Bindings → Copying} (a b : Option Span) :
    (check (a.isSome == b.isSome)).Solves fun s =>
      (a.map (c s).place).map (fun _ => Span.zero) = b.map fun _ => .zero := by
  refine .check fun s => ?_
  cases a <;> cases b <;> simp

theorem assignOps_solves {c : Bindings → Copying} (a b : Option (AssignOp × Span)) :
    (check (a.map (·.1) == b.map (·.1))).Solves fun s =>
      (a.map fun op => (op.1, (c s).place op.2)).map (fun op => (op.1, Span.zero)) =
        b.map fun op => (op.1, .zero) := by
  refine .check fun s => ?_
  cases a <;> cases b <;> simp

end Comparison

/-! ### Trees -/

section Trees

open Comparison

-- The recursive theorems below share their hypothesis, though not each of them uses it.
set_option linter.unusedSectionVars false

variable {r : NameRule} {c : Bindings → Copying}
  (names : ∀ name e, ((Expr.ident name).unify r e).Solves fun s =>
    ((Expr.ident name).copy (c s)).shape = e.shape)

include names

mutual

theorem Expr.unify_solves :
    ∀ a b : Expr, (a.unify r b).Solves fun s => (a.copy (c s)).shape = b.shape
  | .ident name, b => names name b
  | .literal lit, b => by
    cases b with
    | literal lit' =>
      exact (literals_solves lit lit').congr fun s => by simp [Expr.copy, Expr.shape]
    | _ => exact .clash Expr.ctorIdx fun _ => rfl
  | .func _ sig body, b => by
    cases b with
    | func _ sig' body' =>
      have parts := (sig.unify_solves sig').andThen (body.unify_solves body')
      exact parts.congr fun s => by simp [Expr.copy, Expr.shape]
    | _ => exact .clash Expr.ctorIdx fun _ => rfl
  | .composite type _ elements _, b => by
    cases b with
    | composite type' _ elements' _ =>
      have parts := (TypeExpr.unifyOpt_solves type type').andThen
        (Expr.unifyAll_solves elements elements')
      exact parts.congr fun s => by simp [Expr.copy, Expr.shape]
    | _ => exact .clash Expr.ctorIdx fun _ => rfl
  | .paren _ inner _, b => by
    cases b with
    | paren _ inner' _ =>
      exact (inner.unify_solves inner').congr fun s => by simp [Expr.copy, Expr.shape]
    | _ => exact .clash Expr.ctorIdx fun _ => rfl
  | .selector operand _ member, b => by
    cases b with
    | selector operand' _ member' =>
      have parts := (operand.unify_solves operand').andThen (idents_solves member member')
      exact parts.congr fun s => by simp [Expr.copy, Expr.shape]
    | _ => exact .clash Expr.ctorIdx fun _ => rfl
  | .index operand _ indices _, b => by
    cases b with
    | index operand' _ indices' _ =>
      have parts := (operand.unify_solves operand').andThen (Expr.unifyAll_solves indices indices')
      exact parts.congr fun s => by simp [Expr.copy, Expr.shape]
    | _ => exact .clash Expr.ctorIdx fun _ => rfl
  | .slice operand _ lo hi max full _, b => by
    cases b with
    | slice operand' _ lo' hi' max' full' _ =>
      have parts := (operand.unify_solves operand').andThen ((Expr.unifyOpt_solves lo lo').andThen
        ((Expr.unifyOpt_solves hi hi').andThen ((Expr.unifyOpt_solves max max').andThen
        (same_solves full full'))))
      exact parts.congr fun s => by simp [Expr.copy, Expr.shape]
    | _ => exact .clash Expr.ctorIdx fun _ => rfl
  | .assertion operand _ _ type _, b => by
    cases b with
    | assertion operand' _ _ type' _ =>
      have parts := (operand.unify_solves operand').andThen (TypeExpr.unifyOpt_solves type type')
      exact parts.congr fun s => by simp [Expr.copy, Expr.shape]
    | _ => exact .clash Expr.ctorIdx fun _ => rfl
  | .call fn _ args spread _, b => by
    cases b with
    | call fn' _ args' spread' _ =>
      have parts := (spread_solves (c := c) spread spread').andThen
        ((fn.unify_solves fn').andThen (Expr.unifyAll_solves args args'))
      refine parts.congr fun s => ?_
      simp only [Expr.copy, Expr.shape, Expr.call.injEq, true_and, and_true]
      exact and_rotate
    | _ => exact .clash Expr.ctorIdx fun _ => rfl
  | .unary op _ operand, b => by
    cases b with
    | unary op' _ operand' =>
      have parts := (same_solves op op').andThen (operand.unify_solves operand')
      exact parts.congr fun s => by simp [Expr.copy, Expr.shape]
    | _ => exact .clash Expr.ctorIdx fun _ => rfl
  | .binary left op _ right, b => by
    cases b with
    | binary left' op' _ right' =>
      have parts := (left.unify_solves left').andThen ((same_solves op op').andThen
        (right.unify_solves right'))
      exact parts.congr fun s => by simp [Expr.copy, Expr.shape]
    | _ => exact .clash Expr.ctorIdx fun _ => rfl
  | .keyValue key _ value, b => by
    cases b with
    | keyValue key' _ value' =>
      have parts := (key.unify_solves key').andThen (value.unify_solves value')
      exact parts.congr fun s => by simp [Expr.copy, Expr.shape]
    | _ => exact .clash Expr.ctorIdx fun _ => rfl
  | .type t, b => by
    cases b with
    | type t' =>
      exact (t.unify_solves t').congr fun s => by simp [Expr.copy, Expr.shape]
    | _ => exact .clash Expr.ctorIdx fun _ => rfl
termination_by structural x => x

theorem Expr.unifyOpt_solves : ∀ a b : Option Expr,
    (Expr.unifyOpt r a b).Solves fun s => Expr.shapeOpt (Expr.copyOpt (c s) a) = Expr.shapeOpt b
  | none, none => .pure fun _ => rfl
  | some e, some e' =>
    (e.unify_solves e').congr fun s => by simp [Expr.copyOpt, Expr.shapeOpt]
  | none, some _ => .failure fun _ same => nomatch same
  | some _, none => .failure fun _ same => nomatch same
termination_by structural x => x

theorem Expr.unifyAll_solves : ∀ as bs : List Expr,
    (Expr.unifyAll r as bs).Solves fun s => Expr.shapeAll (Expr.copyAll (c s) as) = Expr.shapeAll bs
  | [], [] => .pure fun _ => rfl
  | e :: es, e' :: es' =>
    ((e.unify_solves e').andThen (Expr.unifyAll_solves es es')).congr fun s => by
      simp [Expr.copyAll, Expr.shapeAll]
  | [], _ :: _ => .failure fun _ same => nomatch same
  | _ :: _, [] => .failure fun _ same => nomatch same
termination_by structural x => x

theorem TypeExpr.unify_solves :
    ∀ a b : TypeExpr, (a.unify r b).Solves fun s => (a.copy (c s)).shape = b.shape
  | .named qualifier name, b => by
    cases b with
    | named qualifier' name' =>
      have parts := (qualifiers_solves qualifier qualifier').andThen (idents_solves name name')
      exact parts.congr fun s => by simp [TypeExpr.copy, TypeExpr.shape, Function.comp_def]
    | _ => exact .clash TypeExpr.ctorIdx fun _ => rfl
  | .generic qualifier name _ args _, b => by
    cases b with
    | generic qualifier' name' _ args' _ =>
      have parts := (qualifiers_solves qualifier qualifier').andThen
        ((idents_solves name name').andThen (TypeExpr.unifyAll_solves args args'))
      exact parts.congr fun s => by simp [TypeExpr.copy, TypeExpr.shape, Function.comp_def]
    | _ => exact .clash TypeExpr.ctorIdx fun _ => rfl
  | .pointer _ elem, b => by
    cases b with
    | pointer _ elem' =>
      exact (elem.unify_solves elem').congr fun s => by simp [TypeExpr.copy, TypeExpr.shape]
    | _ => exact .clash TypeExpr.ctorIdx fun _ => rfl
  | .array _ len _ elem, b => by
    cases b with
    | array _ len' _ elem' =>
      have parts := (len.unify_solves len').andThen (elem.unify_solves elem')
      exact parts.congr fun s => by simp [TypeExpr.copy, TypeExpr.shape]
    | _ => exact .clash TypeExpr.ctorIdx fun _ => rfl
  | .countedArray _ _ _ elem, b => by
    cases b with
    | countedArray _ _ _ elem' =>
      exact (elem.unify_solves elem').congr fun s => by simp [TypeExpr.copy, TypeExpr.shape]
    | _ => exact .clash TypeExpr.ctorIdx fun _ => rfl
  | .slice _ _ elem, b => by
    cases b with
    | slice _ _ elem' =>
      exact (elem.unify_solves elem').congr fun s => by simp [TypeExpr.copy, TypeExpr.shape]
    | _ => exact .clash TypeExpr.ctorIdx fun _ => rfl
  | .map _ _ key _ value, b => by
    cases b with
    | map _ _ key' _ value' =>
      have parts := (key.unify_solves key').andThen (value.unify_solves value')
      exact parts.congr fun s => by simp [TypeExpr.copy, TypeExpr.shape]
    | _ => exact .clash TypeExpr.ctorIdx fun _ => rfl
  | .chan dir _ elem, b => by
    cases b with
    | chan dir' _ elem' =>
      have parts := (chanDirs_solves dir dir').andThen (elem.unify_solves elem')
      exact parts.congr fun s => by simp [TypeExpr.copy, TypeExpr.shape]
    | _ => exact .clash TypeExpr.ctorIdx fun _ => rfl
  | .struct _ fields, b => by
    cases b with
    | struct _ fields' =>
      exact (fields.unify_solves fields').congr fun s => by simp [TypeExpr.copy, TypeExpr.shape]
    | _ => exact .clash TypeExpr.ctorIdx fun _ => rfl
  | .interface _ elements, b => by
    cases b with
    | interface _ elements' =>
      exact (elements.unify_solves elements').congr fun s => by simp [TypeExpr.copy, TypeExpr.shape]
    | _ => exact .clash TypeExpr.ctorIdx fun _ => rfl
  | .func _ sig, b => by
    cases b with
    | func _ sig' =>
      exact (sig.unify_solves sig').congr fun s => by simp [TypeExpr.copy, TypeExpr.shape]
    | _ => exact .clash TypeExpr.ctorIdx fun _ => rfl
  | .paren _ inner _, b => by
    cases b with
    | paren _ inner' _ =>
      exact (inner.unify_solves inner').congr fun s => by simp [TypeExpr.copy, TypeExpr.shape]
    | _ => exact .clash TypeExpr.ctorIdx fun _ => rfl
  | .variadic _ elem, b => by
    cases b with
    | variadic _ elem' =>
      exact (elem.unify_solves elem').congr fun s => by simp [TypeExpr.copy, TypeExpr.shape]
    | _ => exact .clash TypeExpr.ctorIdx fun _ => rfl
  | .union terms, b => by
    cases b with
    | union terms' =>
      exact (TypeExpr.unifyAll_solves terms terms').congr fun s => by
        simp [TypeExpr.copy, TypeExpr.shape]
    | _ => exact .clash TypeExpr.ctorIdx fun _ => rfl
  | .tilde _ inner, b => by
    cases b with
    | tilde _ inner' =>
      exact (inner.unify_solves inner').congr fun s => by simp [TypeExpr.copy, TypeExpr.shape]
    | _ => exact .clash TypeExpr.ctorIdx fun _ => rfl
termination_by structural x => x

theorem TypeExpr.unifyOpt_solves : ∀ a b : Option TypeExpr,
    (TypeExpr.unifyOpt r a b).Solves fun s =>
      TypeExpr.shapeOpt (TypeExpr.copyOpt (c s) a) = TypeExpr.shapeOpt b
  | none, none => .pure fun _ => rfl
  | some t, some t' =>
    (t.unify_solves t').congr fun s => by simp [TypeExpr.copyOpt, TypeExpr.shapeOpt]
  | none, some _ => .failure fun _ same => nomatch same
  | some _, none => .failure fun _ same => nomatch same
termination_by structural x => x

theorem TypeExpr.unifyAll_solves : ∀ as bs : List TypeExpr,
    (TypeExpr.unifyAll r as bs).Solves fun s =>
      TypeExpr.shapeAll (TypeExpr.copyAll (c s) as) = TypeExpr.shapeAll bs
  | [], [] => .pure fun _ => rfl
  | t :: ts, t' :: ts' =>
    ((t.unify_solves t').andThen (TypeExpr.unifyAll_solves ts ts')).congr fun s => by
      simp [TypeExpr.copyAll, TypeExpr.shapeAll]
  | [], _ :: _ => .failure fun _ same => nomatch same
  | _ :: _, [] => .failure fun _ same => nomatch same
termination_by structural x => x

theorem Field.unify_solves :
    ∀ a b : Field, (a.unify r b).Solves fun s => (a.copy (c s)).shape = b.shape
  | ⟨_, names, type, tag, _⟩, ⟨_, names', type', tag', _⟩ => by
    have parts := (identLists_solves names names').andThen ((type.unify_solves type').andThen
      (opt_solves (f := fun _ => Literal.shape) literals_solves tag tag'))
    exact parts.congr fun s => by simp [Field.copy, Field.shape, Function.comp_def]
termination_by structural x => x

theorem Field.unifyAll_solves : ∀ as bs : List Field,
    (Field.unifyAll r as bs).Solves fun s =>
      Field.shapeAll (Field.copyAll (c s) as) = Field.shapeAll bs
  | [], [] => .pure fun _ => rfl
  | f :: fs, f' :: fs' =>
    ((f.unify_solves f').andThen (Field.unifyAll_solves fs fs')).congr fun s => by
      simp [Field.copyAll, Field.shapeAll]
  | [], _ :: _ => .failure fun _ same => nomatch same
  | _ :: _, [] => .failure fun _ same => nomatch same
termination_by structural x => x

theorem FieldList.unify_solves :
    ∀ a b : FieldList, (a.unify r b).Solves fun s => (a.copy (c s)).shape = b.shape
  | ⟨_, fields⟩, ⟨_, fields'⟩ =>
    (Field.unifyAll_solves fields fields').congr fun s => by
      simp [FieldList.copy, FieldList.shape]
termination_by structural x => x

theorem FieldList.unifyOpt_solves : ∀ a b : Option FieldList,
    (FieldList.unifyOpt r a b).Solves fun s =>
      FieldList.shapeOpt (FieldList.copyOpt (c s) a) = FieldList.shapeOpt b
  | none, none => .pure fun _ => rfl
  | some l, some l' =>
    (l.unify_solves l').congr fun s => by simp [FieldList.copyOpt, FieldList.shapeOpt]
  | none, some _ => .failure fun _ same => nomatch same
  | some _, none => .failure fun _ same => nomatch same
termination_by structural x => x

theorem Signature.unify_solves :
    ∀ a b : Signature, (a.unify r b).Solves fun s => (a.copy (c s)).shape = b.shape
  | ⟨params, results⟩, ⟨params', results'⟩ => by
    have parts := (params.unify_solves params').andThen
      (FieldList.unifyOpt_solves results results')
    exact parts.congr fun s => by simp [Signature.copy, Signature.shape]
termination_by structural x => x

theorem Block.unify_solves :
    ∀ a b : Block, (a.unify r b).Solves fun s => (a.copy (c s)).shape = b.shape
  | ⟨_, stmts, _⟩, ⟨_, stmts', _⟩ =>
    (Stmt.unifyAll_solves stmts stmts').congr fun s => by simp [Block.copy, Block.shape]
termination_by structural x => x

theorem Stmt.unify_solves :
    ∀ a b : Stmt, (a.unify r b).Solves fun s => (a.copy (c s)).shape = b.shape
  | .decl d, b => by
    cases b with
    | decl d' =>
      exact (d.unify_solves d').congr fun s => by simp [Stmt.copy, Stmt.shape]
    | _ => exact .clash Stmt.ctorIdx fun _ => rfl
  | .empty _, b => by
    cases b with
    | empty _ => exact .pure fun _ => rfl
    | _ => exact .clash Stmt.ctorIdx fun _ => rfl
  | .labeled label _ stmt, b => by
    cases b with
    | labeled label' _ stmt' =>
      have parts := (idents_solves label label').andThen (stmt.unify_solves stmt')
      exact parts.congr fun s => by simp [Stmt.copy, Stmt.shape]
    | _ => exact .clash Stmt.ctorIdx fun _ => rfl
  | .expr e, b => by
    cases b with
    | expr e' =>
      exact (e.unify_solves e').congr fun s => by simp [Stmt.copy, Stmt.shape]
    | _ => exact .clash Stmt.ctorIdx fun _ => rfl
  | .send chan _ value, b => by
    cases b with
    | send chan' _ value' =>
      have parts := (chan.unify_solves chan').andThen (value.unify_solves value')
      exact parts.congr fun s => by simp [Stmt.copy, Stmt.shape]
    | _ => exact .clash Stmt.ctorIdx fun _ => rfl
  | .incDec operand op _, b => by
    cases b with
    | incDec operand' op' _ =>
      have parts := (operand.unify_solves operand').andThen (same_solves op op')
      exact parts.congr fun s => by simp [Stmt.copy, Stmt.shape]
    | _ => exact .clash Stmt.ctorIdx fun _ => rfl
  | .assign lhs op _ rhs, b => by
    cases b with
    | assign lhs' op' _ rhs' =>
      have parts := (Expr.unifyAll_solves lhs lhs').andThen ((same_solves op op').andThen
        (Expr.unifyAll_solves rhs rhs'))
      exact parts.congr fun s => by simp [Stmt.copy, Stmt.shape]
    | _ => exact .clash Stmt.ctorIdx fun _ => rfl
  | .go _ call, b => by
    cases b with
    | go _ call' =>
      exact (call.unify_solves call').congr fun s => by simp [Stmt.copy, Stmt.shape]
    | _ => exact .clash Stmt.ctorIdx fun _ => rfl
  | .defer _ call, b => by
    cases b with
    | defer _ call' =>
      exact (call.unify_solves call').congr fun s => by simp [Stmt.copy, Stmt.shape]
    | _ => exact .clash Stmt.ctorIdx fun _ => rfl
  | .returns _ results, b => by
    cases b with
    | returns _ results' =>
      exact (Expr.unifyAll_solves results results').congr fun s => by simp [Stmt.copy, Stmt.shape]
    | _ => exact .clash Stmt.ctorIdx fun _ => rfl
  | .branch kind _ label, b => by
    cases b with
    | branch kind' _ label' =>
      have parts := (same_solves kind kind').andThen
        (opt_solves (f := fun _ => Ident.shape) idents_solves label label')
      exact parts.congr fun s => by simp [Stmt.copy, Stmt.shape, Function.comp_def]
    | _ => exact .clash Stmt.ctorIdx fun _ => rfl
  | .block b₁, b => by
    cases b with
    | block b' =>
      exact (b₁.unify_solves b').congr fun s => by simp [Stmt.copy, Stmt.shape]
    | _ => exact .clash Stmt.ctorIdx fun _ => rfl
  | .ifElse _ init cond body orElse, b => by
    cases b with
    | ifElse _ init' cond' body' orElse' =>
      have parts := (Stmt.unifyOpt_solves init init').andThen ((cond.unify_solves cond').andThen
        ((body.unify_solves body').andThen (Stmt.unifyOpt_solves orElse orElse')))
      exact parts.congr fun s => by simp [Stmt.copy, Stmt.shape]
    | _ => exact .clash Stmt.ctorIdx fun _ => rfl
  | .caseClause _ values _ body, b => by
    cases b with
    | caseClause _ values' _ body' =>
      have parts := (Expr.unifyAll_solves values values').andThen (Stmt.unifyAll_solves body body')
      exact parts.congr fun s => by simp [Stmt.copy, Stmt.shape]
    | _ => exact .clash Stmt.ctorIdx fun _ => rfl
  | .switch _ init tag body, b => by
    cases b with
    | switch _ init' tag' body' =>
      have parts := (Stmt.unifyOpt_solves init init').andThen
        ((Expr.unifyOpt_solves tag tag').andThen (body.unify_solves body'))
      exact parts.congr fun s => by simp [Stmt.copy, Stmt.shape]
    | _ => exact .clash Stmt.ctorIdx fun _ => rfl
  | .typeSwitch _ init guarded body, b => by
    cases b with
    | typeSwitch _ init' guarded' body' =>
      have parts := (Stmt.unifyOpt_solves init init').andThen
        ((guarded.unify_solves guarded').andThen (body.unify_solves body'))
      exact parts.congr fun s => by simp [Stmt.copy, Stmt.shape]
    | _ => exact .clash Stmt.ctorIdx fun _ => rfl
  | .commClause _ comm _ body, b => by
    cases b with
    | commClause _ comm' _ body' =>
      have parts := (Stmt.unifyOpt_solves comm comm').andThen (Stmt.unifyAll_solves body body')
      exact parts.congr fun s => by simp [Stmt.copy, Stmt.shape]
    | _ => exact .clash Stmt.ctorIdx fun _ => rfl
  | .select _ body, b => by
    cases b with
    | select _ body' =>
      exact (body.unify_solves body').congr fun s => by simp [Stmt.copy, Stmt.shape]
    | _ => exact .clash Stmt.ctorIdx fun _ => rfl
  | .forLoop _ init cond post body, b => by
    cases b with
    | forLoop _ init' cond' post' body' =>
      have parts := (Stmt.unifyOpt_solves init init').andThen
        ((Expr.unifyOpt_solves cond cond').andThen ((Stmt.unifyOpt_solves post post').andThen
        (body.unify_solves body')))
      exact parts.congr fun s => by simp [Stmt.copy, Stmt.shape]
    | _ => exact .clash Stmt.ctorIdx fun _ => rfl
  | .range _ key value op _ operand body, b => by
    cases b with
    | range _ key' value' op' _ operand' body' =>
      have parts := (Expr.unifyOpt_solves key key').andThen
        ((Expr.unifyOpt_solves value value').andThen ((assignOps_solves (c := c) op op').andThen
        ((operand.unify_solves operand').andThen (body.unify_solves body'))))
      exact parts.congr fun s => by simp [Stmt.copy, Stmt.shape]
    | _ => exact .clash Stmt.ctorIdx fun _ => rfl
termination_by structural x => x

theorem Stmt.unifyOpt_solves : ∀ a b : Option Stmt,
    (Stmt.unifyOpt r a b).Solves fun s => Stmt.shapeOpt (Stmt.copyOpt (c s) a) = Stmt.shapeOpt b
  | none, none => .pure fun _ => rfl
  | some t, some t' =>
    (t.unify_solves t').congr fun s => by simp [Stmt.copyOpt, Stmt.shapeOpt]
  | none, some _ => .failure fun _ same => nomatch same
  | some _, none => .failure fun _ same => nomatch same
termination_by structural x => x

theorem Stmt.unifyAll_solves : ∀ as bs : List Stmt,
    (Stmt.unifyAll r as bs).Solves fun s => Stmt.shapeAll (Stmt.copyAll (c s) as) = Stmt.shapeAll bs
  | [], [] => .pure fun _ => rfl
  | t :: ts, t' :: ts' =>
    ((t.unify_solves t').andThen (Stmt.unifyAll_solves ts ts')).congr fun s => by
      simp [Stmt.copyAll, Stmt.shapeAll]
  | [], _ :: _ => .failure fun _ same => nomatch same
  | _ :: _, [] => .failure fun _ same => nomatch same
termination_by structural x => x

theorem GenDecl.unify_solves :
    ∀ a b : GenDecl, (a.unify r b).Solves fun s => (a.copy (c s)).shape = b.shape
  | ⟨_, _, kind, _, specs, _⟩, ⟨_, _, kind', _, specs', _⟩ => by
    have parts := (same_solves kind kind').andThen (Spec.unifyAll_solves specs specs')
    exact parts.congr fun s => by simp [GenDecl.copy, GenDecl.shape]
termination_by structural x => x

theorem Spec.unify_solves :
    ∀ a b : Spec, (a.unify r b).Solves fun s => (a.copy (c s)).shape = b.shape
  | .importSpec spec, b => by
    cases b with
    | importSpec spec' =>
      exact (importSpecs_solves spec spec').congr fun s => by simp [Spec.copy, Spec.shape]
    | _ => exact .clash Spec.ctorIdx fun _ => rfl
  | .valueSpec _ names type _ values _, b => by
    cases b with
    | valueSpec _ names' type' _ values' _ =>
      have parts := (identLists_solves names names').andThen
        ((TypeExpr.unifyOpt_solves type type').andThen (Expr.unifyAll_solves values values'))
      exact parts.congr fun s => by simp [Spec.copy, Spec.shape, Function.comp_def]
    | _ => exact .clash Spec.ctorIdx fun _ => rfl
  | .typeSpec _ name typeParams _ type _, b => by
    cases b with
    | typeSpec _ name' typeParams' _ type' _ =>
      have parts := (idents_solves name name').andThen
        ((FieldList.unifyOpt_solves typeParams typeParams').andThen (type.unify_solves type'))
      exact parts.congr fun s => by simp [Spec.copy, Spec.shape]
    | _ => exact .clash Spec.ctorIdx fun _ => rfl
termination_by structural x => x

theorem Spec.unifyAll_solves : ∀ as bs : List Spec,
    (Spec.unifyAll r as bs).Solves fun s => Spec.shapeAll (Spec.copyAll (c s) as) = Spec.shapeAll bs
  | [], [] => .pure fun _ => rfl
  | p :: ps, p' :: ps' =>
    ((p.unify_solves p').andThen (Spec.unifyAll_solves ps ps')).congr fun s => by
      simp [Spec.copyAll, Spec.shapeAll]
  | [], _ :: _ => .failure fun _ same => nomatch same
  | _ :: _, [] => .failure fun _ same => nomatch same
termination_by structural x => x

end

end Trees

/-! ### Likeness -/

theorem Expr.unify_plain_ident (name : Ident) (e : Expr) :
    ((Expr.ident name).unify .plain e).Solves fun _ =>
      ((Expr.ident name).copy (.stamp 0)).shape = e.shape := by
  cases e with
  | ident name' =>
    exact (Comparison.idents_solves name name').congr fun s => by
      simp [Expr.copy, Expr.shape, Copying.stamp]
  | _ => exact .clash Expr.ctorIdx fun _ => rfl

/-- A comparison that solves for what no binding has a say in decides it. -/
theorem Comparison.Solves.holds_iff {x : Comparison} {p : Prop} (h : x.Solves fun _ => p) :
    x.holds = true ↔ p := by
  rw [Comparison.holds, Option.isSome_iff_exists]
  constructor
  · rintro ⟨⟨⟨⟩, b'⟩, run⟩
    exact (h.sound run).2 b' b'.covers_self
  · intro holds
    obtain ⟨b', run, -⟩ := h.complete (Bindings.covers_nil []) holds
    exact ⟨((), b'), run⟩

/-- Two expressions are alike if and only if they have one shape. -/
theorem Expr.alike_iff {a b : Expr} : a.alike b = true ↔ a.shape = b.shape := by
  have solves := Expr.unify_solves (c := fun _ => .stamp 0) Expr.unify_plain_ident a b
  have shape : (a.copy (.stamp 0)).shape = a.shape := Expr.shape_copy (fun _ => rfl) a
  rw [shape] at solves
  exact solves.holds_iff

end GoLayout
