import GoLayout.Proofs.Order.Landmark
import GoLayout.Tree.Node

/-!
The declarations among the landmarks of a tree are statements of it.
-/

namespace GoLayout

namespace Landmark

variable {l : Landmark} {ls ls' ls'' : List Landmark} {ms ms' ms'' : List Node} {m : Node}

/-- The declarations among the landmarks are statements among the nodes. -/
def EntersIn (ls : List Landmark) (ms : List Node) : Prop :=
  ∀ d, .entry d ∈ ls → .stmt (.decl d) ∈ ms

/-- Landmarks without declarations. -/
def Entryless (ls : List Landmark) : Prop := ∀ d, .entry d ∉ ls

namespace EntersIn

theorem nil : EntersIn [] ms := nofun

theorem skip (h : EntersIn ls ms) (plain : ∀ d, l ≠ .entry d) : EntersIn (l :: ls) ms := by
  intro d mem
  rcases List.mem_cons.mp mem with same | mem
  · exact absurd same.symm (plain d)
  · exact h d mem

theorem token {s : Span} (h : EntersIn ls ms) : EntersIn (.token s :: ls) ms :=
  h.skip nofun

theorem entry {d : GenDecl} (h : EntersIn ls ms) :
    EntersIn (.entry d :: ls) (.stmt (.decl d) :: ms) := by
  intro d' mem
  rcases List.mem_cons.mp mem with same | mem
  · cases same
    exact List.mem_cons_self
  · exact List.mem_cons_of_mem _ (h d' mem)

theorem node (h : EntersIn ls ms) : EntersIn ls (m :: ms) :=
  fun d mem => List.mem_cons_of_mem _ (h d mem)

theorem append (first : EntersIn ls ms) (second : EntersIn ls' ms') :
    EntersIn (ls ++ ls') (ms ++ ms') := by
  intro d mem
  rcases List.mem_append.mp mem with mem | mem
  · exact List.mem_append_left _ (first d mem)
  · exact List.mem_append_right _ (second d mem)

theorem past (plain : Entryless ls) (h : EntersIn ls' ms) : EntersIn (ls ++ ls') ms :=
  fun d mem => h d ((List.mem_append.mp mem).resolve_left (plain d))

theorem before (h : EntersIn ls ms) (plain : Entryless ls') : EntersIn (ls ++ ls') ms :=
  fun d mem => h d ((List.mem_append.mp mem).resolve_right (plain d))

theorem close {s : Span} (h : EntersIn ls ms) : EntersIn (ls ++ [.token s]) ms :=
  h.before (by simp [Entryless])

theorem assoc (h : EntersIn ls (ms ++ (ms' ++ ms''))) : EntersIn ls (ms ++ ms' ++ ms'') :=
  List.append_assoc ms ms' ms'' ▸ h

theorem regroup (h : EntersIn (ls ++ (ls' ++ ls'')) ms) : EntersIn (ls ++ ls' ++ ls'') ms :=
  List.append_assoc ls ls' ls'' ▸ h

theorem of_entryless (plain : Entryless ls) : EntersIn ls ms := fun d mem => absurd mem (plain d)

end EntersIn

theorem entryless_map {α : Type} {f : α → Span} {l : List α} :
    Entryless (l.map fun a => .token (f a)) := by
  simp [Entryless]

theorem entryless_qualifier {q : Option Qualifier} {name : Ident} :
    Entryless (Qualifier.landmarks q name) := by
  cases q <;> simp [Entryless, Qualifier.landmarks, Ident.landmark]

theorem entryless_chanDir {dir : ChanDir} {chanPos : Span} :
    Entryless (dir.landmarks chanPos) := by
  cases dir <;> simp [Entryless, ChanDir.landmarks]

theorem entryless_import {s : ImportSpec} : Entryless s.landmarks := by
  obtain ⟨doc, name, path, comment⟩ := s
  rcases name with _ | _ | _ <;>
    simp [Entryless, ImportSpec.landmarks, ImportName.landmark, Ident.landmark, Literal.landmark]

end Landmark

open Landmark (EntersIn entryless_map entryless_qualifier entryless_chanDir entryless_import)

mutual

theorem Expr.enters : ∀ e : Expr, EntersIn e.landmarks e.nodes
  | .ident _ => .token .nil
  | .literal _ => .token .nil
  | .func _ sig body => .node (.token (sig.enters.append body.enters))
  | .composite ty _ elements _ =>
    .node ((TypeExpr.entersOpt ty).append (.token (Expr.entersAll elements).close))
  | .paren _ inner _ => .node (.token inner.enters.close)
  | .selector operand _ _ => .node (operand.enters.before (entryless_map (l := [_, _]) (f := id)))
  | .index operand _ indices _ =>
    .node (operand.enters.append (.token (Expr.entersAll indices).close))
  | .slice operand _ lo hi max _ _ => .node (.assoc (.assoc (operand.enters.append (.token
    (EntersIn.regroup ((Expr.entersOpt lo).append
      ((Expr.entersOpt hi).append (Expr.entersOpt max)))).close))))
  | .assertion operand _ _ ty _ =>
    .node (operand.enters.append (.token (.token (TypeExpr.entersOpt ty).close)))
  | .call fn _ args _ _ => .node (fn.enters.append (.token (Expr.entersAll args).close))
  | .unary _ _ operand => .node (.token operand.enters)
  | .binary left _ _ right => .node (left.enters.append (.token right.enters))
  | .keyValue key _ value => .node (key.enters.append (.token value.enters))
  | .type t => .node t.enters

theorem Expr.entersOpt : ∀ o : Option Expr, EntersIn (Expr.landmarksOpt o) (Expr.nodesOpt o)
  | none => .nil
  | some e => e.enters

theorem Expr.entersAll : ∀ es : List Expr, EntersIn (Expr.landmarksAll es) (Expr.nodesAll es)
  | [] => .nil
  | e :: es => e.enters.append (Expr.entersAll es)

theorem TypeExpr.enters : ∀ t : TypeExpr, EntersIn t.landmarks t.nodes
  | .named _ _ => .of_entryless entryless_qualifier
  | .generic _ _ _ args _ =>
    .node (.past entryless_qualifier (.token (TypeExpr.entersAll args).close))
  | .pointer _ elem => .node (.token elem.enters)
  | .array _ len _ elem => .node (.token (len.enters.append (.token elem.enters)))
  | .countedArray _ _ _ elem => .node (.token (.token (.token elem.enters)))
  | .slice _ _ elem => .node (.token (.token elem.enters))
  | .map _ _ key _ value => .node (.token (.token (key.enters.append (.token value.enters))))
  | .chan _ _ elem => .node (.past entryless_chanDir elem.enters)
  | .struct _ fields => .node (.token fields.enters)
  | .interface _ elements => .node (.token elements.enters)
  | .func _ sig => .node (.past (entryless_map (f := id)) sig.enters)
  | .paren _ inner _ => .node (.token inner.enters.close)
  | .variadic _ elem => .node (.token elem.enters)
  | .union [] => .skip .nil nofun
  | .union (t :: ts) => .node (t.enters.append (TypeExpr.entersAll ts))
  | .tilde _ inner => .node (.token inner.enters)

theorem TypeExpr.entersOpt : ∀ o : Option TypeExpr,
    EntersIn (TypeExpr.landmarksOpt o) (TypeExpr.nodesOpt o)
  | none => .nil
  | some t => t.enters

theorem TypeExpr.entersAll : ∀ ts : List TypeExpr,
    EntersIn (TypeExpr.landmarksAll ts) (TypeExpr.nodesAll ts)
  | [] => .nil
  | t :: ts => t.enters.append (TypeExpr.entersAll ts)

theorem Field.enters : ∀ f : Field, EntersIn f.landmarks f.nodes
  | ⟨_, _, type, _, _⟩ =>
    .node ((type.enters.past entryless_map).before entryless_map)

theorem Field.entersAll : ∀ fs : List Field, EntersIn (Field.landmarksAll fs) (Field.nodesAll fs)
  | [] => .nil
  | f :: fs => f.enters.append (Field.entersAll fs)

theorem FieldList.enters : ∀ l : FieldList, EntersIn l.landmarks l.nodes
  | ⟨some _, fields⟩ => .token (Field.entersAll fields).close
  | ⟨none, []⟩ => .skip .nil nofun
  | ⟨none, [f]⟩ => by
    rw [FieldList.nodes, Field.nodesAll, Field.nodesAll, List.append_nil]
    exact f.enters
  | ⟨none, _ :: _ :: _⟩ => .skip .nil nofun

theorem FieldList.entersOpt : ∀ o : Option FieldList,
    EntersIn (FieldList.landmarksOpt o) (FieldList.nodesOpt o)
  | none => .nil
  | some l => l.enters

theorem Signature.enters : ∀ s : Signature, EntersIn s.landmarks s.nodes
  | ⟨params, results⟩ => .node (params.enters.append (FieldList.entersOpt results))

theorem Block.enters : ∀ b : Block, EntersIn b.landmarks b.nodes
  | ⟨_, stmts, _⟩ => .token (Stmt.entersAll stmts).close

theorem Stmt.enters : ∀ s : Stmt, EntersIn s.landmarks s.nodes
  | .decl d => .entry d.enters
  | .empty _ => .skip .nil nofun
  | .labeled _ _ stmt => .node (.token (.token stmt.enters))
  | .expr e => .node e.enters
  | .send chan _ value => .node (chan.enters.append (.token value.enters))
  | .incDec operand _ _ => .node operand.enters.close
  | .assign lhs _ _ rhs => .node ((Expr.entersAll lhs).append (.token (Expr.entersAll rhs)))
  | .go _ call => .node (.token call.enters)
  | .defer _ call => .node (.token call.enters)
  | .returns _ results => .node (.token (Expr.entersAll results))
  | .branch _ _ _ => .token (.of_entryless entryless_map)
  | .block b => .node b.enters
  | .ifElse _ init cond body orElse => .node (.token ((((Stmt.entersOpt init).append
    cond.enters).append body.enters).append (Stmt.entersOpt orElse)))
  | .caseClause _ values _ body =>
    .node (.token ((Expr.entersAll values).append (.token (Stmt.entersAll body))))
  | .switch _ init tag body => .node (.token (((Stmt.entersOpt init).append
    (Expr.entersOpt tag)).append body.enters))
  | .typeSwitch _ init guarded body => .node (.token (((Stmt.entersOpt init).append
    guarded.enters).append body.enters))
  | .commClause _ comm _ body =>
    .node (.token ((Stmt.entersOpt comm).append (.token (Stmt.entersAll body))))
  | .select _ body => .node (.token body.enters)
  | .forLoop _ init cond post body => .node (.token ((((Stmt.entersOpt init).append
    (Expr.entersOpt cond)).append (Stmt.entersOpt post)).append body.enters))
  | .range _ key value _ _ operand body => .node (.token (.assoc ((((Expr.entersOpt key).append
    (Expr.entersOpt value)).before entryless_map).append
      (.token (operand.enters.append body.enters)))))

theorem Stmt.entersOpt : ∀ o : Option Stmt, EntersIn (Stmt.landmarksOpt o) (Stmt.nodesOpt o)
  | none => .nil
  | some s => s.enters

theorem Stmt.entersAll : ∀ ss : List Stmt, EntersIn (Stmt.landmarksAll ss) (Stmt.nodesAll ss)
  | [] => .nil
  | s :: ss => s.enters.append (Stmt.entersAll ss)

theorem GenDecl.enters : ∀ d : GenDecl, EntersIn d.landmarks d.nodes
  | ⟨_, _, _, some _, specs, some _⟩ => .node (.token (.token (Spec.entersAll specs).close))
  | ⟨_, _, _, none, [s], none⟩ => by
    rw [GenDecl.nodes, Spec.nodesAll, Spec.nodesAll, List.append_nil]
    exact .node (.token s.enters)
  | ⟨_, _, _, some _, _, none⟩ => .skip .nil nofun
  | ⟨_, _, _, none, [], _⟩ => .skip .nil nofun
  | ⟨_, _, _, none, [_], some _⟩ => .skip .nil nofun
  | ⟨_, _, _, none, _ :: _ :: _, _⟩ => .skip .nil nofun

theorem Spec.enters : ∀ s : Spec, EntersIn s.landmarks s.nodes
  | .importSpec _ => .of_entryless entryless_import
  | .valueSpec _ [] _ _ _ _ => .skip .nil nofun
  | .valueSpec _ (_ :: _) type none [] _ => by
    rw [Spec.nodes, Expr.nodesAll, List.append_nil]
    exact .past entryless_map (TypeExpr.entersOpt type)
  | .valueSpec _ (_ :: _) type (some _) (value :: values) _ =>
    ((TypeExpr.entersOpt type).past entryless_map).append
      (.token (value.enters.append (Expr.entersAll values)))
  | .valueSpec _ (_ :: _) _ none (_ :: _) _ => .skip .nil nofun
  | .valueSpec _ (_ :: _) _ (some _) [] _ => .skip .nil nofun
  | .typeSpec _ _ typeParams _ type _ => .token (((FieldList.entersOpt typeParams).before
    (entryless_map (f := id))).append type.enters)

theorem Spec.entersAll : ∀ ss : List Spec, EntersIn (Spec.landmarksAll ss) (Spec.nodesAll ss)
  | [] => .nil
  | s :: ss => s.enters.append (Spec.entersAll ss)

end

theorem FuncDecl.enters (f : FuncDecl) : EntersIn f.landmarks f.nodes := by
  have body : EntersIn (f.body.toList.flatMap Block.landmarks)
      ((f.body.map (·.nodes)).getD []) := by
    cases f.body with
    | none => exact .nil
    | some b => simpa using b.enters
  exact .node (.token (.assoc (.assoc ((FieldList.entersOpt f.receiver).append (.token
    (.regroup ((FieldList.entersOpt f.typeParams).append (f.sig.enters.append body))))))))

theorem Decl.enters (d : Decl) : EntersIn d.landmarks d.nodes := by
  cases d with
  | gen d => exact d.enters.skip nofun
  | func f => exact f.enters.skip nofun

theorem SourceFile.enters (f : SourceFile) : EntersIn f.landmarks f.nodes := by
  refine .token (.token fun d mem => ?_)
  obtain ⟨decl, found, inDecl⟩ := List.mem_flatMap.mp mem
  exact List.mem_flatMap.mpr ⟨decl, found, decl.enters d inDecl⟩

end GoLayout
