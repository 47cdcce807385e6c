import GoLayout.Proofs.Form.Node

/-!
Every expression of a file stands in a role: it is a part of one of the nodes. So what holds of the
parts of all nodes holds of all expressions.
-/

namespace GoLayout

/-- An expression among the nodes is one of the given ones, or a part of one of the nodes. -/
def Placed (es : List Expr) (ms : List Node) : Prop :=
  ∀ e, Node.expr e ∈ ms → e ∈ es ∨ ∃ m ∈ ms, ∃ role, (role, e) ∈ m.parts

namespace Placed

variable {es es' : List Expr} {ms ms' : List Node} {m : Node} {e : Expr}

theorem nil : Placed [] [] := by simp [Placed]

theorem append (first : Placed es ms) (second : Placed es' ms') : Placed (es ++ es') (ms ++ ms') := by
  intro e mem
  rcases List.mem_append.mp mem with mem | mem
  · rcases first e mem with given | ⟨m, inside, part⟩
    · exact .inl (List.mem_append_left _ given)
    · exact .inr ⟨m, List.mem_append_left _ inside, part⟩
  · rcases second e mem with given | ⟨m, inside, part⟩
    · exact .inl (List.mem_append_right _ given)
    · exact .inr ⟨m, List.mem_append_right _ inside, part⟩

/-- Expressions that are parts of a node need not be given any more. -/
theorem below (h : Placed es ms) (parts : es = m.parts.map Prod.snd) :
    ∀ e, Node.expr e ∈ ms → ∃ m' ∈ m :: ms, ∃ role, (role, e) ∈ m'.parts := by
  intro e mem
  rcases h e mem with given | ⟨m', inside, part⟩
  · rw [parts] at given
    obtain ⟨⟨role, _⟩, part, rfl⟩ := List.mem_map.mp given
    exact ⟨m, List.mem_cons_self, role, part⟩
  · exact ⟨m', List.mem_cons_of_mem _ inside, part⟩

theorem expr (h : Placed es ms) (parts : es = (Node.expr e).parts.map Prod.snd) :
    Placed [e] (.expr e :: ms) := by
  intro x mem
  rcases List.mem_cons.mp mem with same | mem
  · exact .inl (by simpa using same)
  · exact .inr (below h parts x mem)

theorem node (h : Placed es ms) (parts : es = m.parts.map Prod.snd) (other : ∀ e, m ≠ .expr e) :
    Placed [] (m :: ms) := by
  intro x mem
  rcases List.mem_cons.mp mem with same | mem
  · exact absurd same.symm (other x)
  · exact .inr (below h parts x mem)

end Placed

open Placed (nil)

mutual

theorem Expr.placed : ∀ e : Expr, Placed [e] e.nodes
  | .ident _ => .expr nil rfl
  | .literal _ => .expr nil rfl
  | .func _ sig body => .expr (sig.placed.append body.placed) rfl
  | .composite ty _ elements _ => .expr ((TypeExpr.placedOpt ty).append (Expr.placedAll elements))
    (by simp [Node.parts, Function.comp_def])
  | .paren _ inner _ => .expr inner.placed rfl
  | .selector operand _ _ => .expr operand.placed rfl
  | .index operand _ indices _ => .expr (operand.placed.append (Expr.placedAll indices))
    (by simp [Node.parts, Function.comp_def])
  | .slice operand _ lo hi max _ _ => .expr (((operand.placed.append (Expr.placedOpt lo)).append
    (Expr.placedOpt hi)).append (Expr.placedOpt max)) (by simp [Node.parts, Function.comp_def])
  | .assertion operand _ _ ty _ => .expr (operand.placed.append (TypeExpr.placedOpt ty)) rfl
  | .call fn _ args _ _ => .expr (fn.placed.append (Expr.placedAll args))
    (by simp [Node.parts, Function.comp_def])
  | .unary _ _ operand => .expr operand.placed rfl
  | .binary left _ _ right => .expr (left.placed.append right.placed) rfl
  | .keyValue key _ value => .expr (key.placed.append value.placed) rfl
  | .type t => .expr t.placed rfl

theorem Expr.placedOpt : ∀ o : Option Expr, Placed o.toList (Expr.nodesOpt o)
  | none => nil
  | some e => e.placed

theorem Expr.placedAll : ∀ es : List Expr, Placed es (Expr.nodesAll es)
  | [] => nil
  | e :: es => e.placed.append (Expr.placedAll es)

theorem TypeExpr.placed : ∀ t : TypeExpr, Placed [] t.nodes
  | .named _ _ => .node nil rfl nofun
  | .generic _ _ _ args _ => .node (TypeExpr.placedAll args) rfl nofun
  | .pointer _ elem => .node elem.placed rfl nofun
  | .array _ len _ elem => .node (len.placed.append elem.placed) rfl nofun
  | .countedArray _ _ _ elem => .node elem.placed rfl nofun
  | .slice _ _ elem => .node elem.placed rfl nofun
  | .map _ _ key _ value => .node (key.placed.append value.placed) rfl nofun
  | .chan _ _ elem => .node elem.placed rfl nofun
  | .struct _ fields => .node fields.placed rfl nofun
  | .interface _ elements => .node elements.placed rfl nofun
  | .func _ sig => .node sig.placed rfl nofun
  | .paren _ inner _ => .node inner.placed rfl nofun
  | .variadic _ elem => .node elem.placed rfl nofun
  | .union terms => .node (TypeExpr.placedAll terms) rfl nofun
  | .tilde _ inner => .node inner.placed rfl nofun

theorem TypeExpr.placedOpt : ∀ o : Option TypeExpr, Placed [] (TypeExpr.nodesOpt o)
  | none => nil
  | some t => t.placed

theorem TypeExpr.placedAll : ∀ ts : List TypeExpr, Placed [] (TypeExpr.nodesAll ts)
  | [] => nil
  | t :: ts => t.placed.append (TypeExpr.placedAll ts)

theorem Field.placed : ∀ f : Field, Placed [] f.nodes
  | ⟨_, _, type, _, _⟩ => .node type.placed rfl nofun

theorem Field.placedAll : ∀ fs : List Field, Placed [] (Field.nodesAll fs)
  | [] => nil
  | f :: fs => f.placed.append (Field.placedAll fs)

theorem FieldList.placed : ∀ l : FieldList, Placed [] l.nodes
  | ⟨_, fields⟩ => Field.placedAll fields

theorem FieldList.placedOpt : ∀ o : Option FieldList, Placed [] (FieldList.nodesOpt o)
  | none => nil
  | some l => l.placed

theorem Signature.placed : ∀ s : Signature, Placed [] s.nodes
  | ⟨params, results⟩ => .node (params.placed.append (FieldList.placedOpt results)) rfl nofun

theorem Block.placed : ∀ b : Block, Placed [] b.nodes
  | ⟨_, stmts, _⟩ => Stmt.placedAll stmts

theorem Stmt.placed : ∀ s : Stmt, Placed [] s.nodes
  | .decl d => .node d.placed rfl nofun
  | .empty _ => .node nil rfl nofun
  | .labeled _ _ stmt => .node stmt.placed rfl nofun
  | .expr e => .node e.placed rfl nofun
  | .send chan _ value => .node (chan.placed.append value.placed) rfl nofun
  | .incDec operand _ _ => .node operand.placed rfl nofun
  | .assign lhs _ _ rhs => .node ((Expr.placedAll lhs).append (Expr.placedAll rhs))
    (by simp [Node.parts, Stmt.exprs, Function.comp_def]) nofun
  | .go _ call => .node call.placed rfl nofun
  | .defer _ call => .node call.placed rfl nofun
  | .returns _ results => .node (Expr.placedAll results)
    (by simp [Node.parts, Stmt.exprs, Function.comp_def]) nofun
  | .branch _ _ _ => .node nil rfl nofun
  | .block b => .node b.placed rfl nofun
  | .ifElse _ init cond body orElse => .node ((((Stmt.placedOpt init).append cond.placed).append
    body.placed).append (Stmt.placedOpt orElse)) rfl nofun
  | .caseClause _ values _ body => .node ((Expr.placedAll values).append (Stmt.placedAll body))
    (by simp [Node.parts, Stmt.exprs, Function.comp_def]) nofun
  | .switch _ init tag body => .node (((Stmt.placedOpt init).append (Expr.placedOpt tag)).append
    body.placed) (by simp [Node.parts, Stmt.exprs, Function.comp_def]) nofun
  | .typeSwitch _ init guarded body => .node (((Stmt.placedOpt init).append guarded.placed).append
    body.placed) rfl nofun
  | .commClause _ comm _ body => .node ((Stmt.placedOpt comm).append (Stmt.placedAll body)) rfl nofun
  | .select _ body => .node body.placed rfl nofun
  | .forLoop _ init cond post body => .node ((((Stmt.placedOpt init).append
    (Expr.placedOpt cond)).append (Stmt.placedOpt post)).append body.placed)
    (by simp [Node.parts, Stmt.exprs, Function.comp_def]) nofun
  | .range _ key value _ _ operand body => .node ((((Expr.placedOpt key).append
    (Expr.placedOpt value)).append operand.placed).append body.placed)
    (by simp [Node.parts, Stmt.exprs, Function.comp_def]) nofun

theorem Stmt.placedOpt : ∀ o : Option Stmt, Placed [] (Stmt.nodesOpt o)
  | none => nil
  | some s => s.placed

theorem Stmt.placedAll : ∀ ss : List Stmt, Placed [] (Stmt.nodesAll ss)
  | [] => nil
  | s :: ss => s.placed.append (Stmt.placedAll ss)

theorem GenDecl.placed : ∀ d : GenDecl, Placed [] d.nodes
  | ⟨_, _, _, _, specs, _⟩ => .node (Spec.placedAll specs)
    (by simp [Node.parts, Function.comp_def]) nofun

theorem Spec.placed : ∀ s : Spec, Placed s.values s.nodes
  | .importSpec _ => nil
  | .valueSpec _ _ type _ values _ => (TypeExpr.placedOpt type).append (Expr.placedAll values)
  | .typeSpec _ _ typeParams _ type _ => (FieldList.placedOpt typeParams).append type.placed

theorem Spec.placedAll : ∀ ss : List Spec, Placed (ss.flatMap Spec.values) (Spec.nodesAll ss)
  | [] => nil
  | s :: ss => s.placed.append (Spec.placedAll ss)

end

theorem FuncDecl.placed (f : FuncDecl) : Placed [] f.nodes := by
  have body : Placed [] ((f.body.map (·.nodes)).getD []) := by
    cases f.body with
    | none => exact nil
    | some b => exact b.placed
  exact .node ((((FieldList.placedOpt f.receiver).append (FieldList.placedOpt f.typeParams)).append
    f.sig.placed).append body) rfl nofun

/-- Every expression of a file is a part of one of its nodes. -/
theorem SourceFile.exprs_placed (f : SourceFile) : Placed [] f.nodes := by
  unfold nodes
  induction f.decls with
  | nil => exact nil
  | cons d ds ih =>
    have first : Placed [] d.nodes := by
      cases d with
      | gen d => exact d.placed
      | func f => exact f.placed
    exact first.append ih

end GoLayout
