import GoLayout.Proofs.Order.Extent
import GoLayout.Proofs.Order.File
import GoLayout.Proofs.Tree.Constituent

/-!
Extents nest. The landmarks of the parts of a constituent are among its own, in the order of the
parts. So where landmarks are in order, each constituent reaches from the first of its own to the
last one, and its parts stand in it, each before the next one.
-/

namespace GoLayout

open Landmark (InOrder Begins Stops Ends begins_cons stops_singleton inOrder_append)

namespace Constituent

def pos : Constituent → Nat
  | .node m => m.pos
  | .spec s => s.pos
  | .fields l => l.pos
  | .block b => b.lbrace.start
  | .name i => i.span.start
  | .literal l => l.span.start

def stop : Constituent → Nat
  | .node m => m.stop
  | .spec s => s.stop
  | .fields l => l.stop?.getD 0
  | .block b => b.rbrace.stop
  | .name i => i.span.stop
  | .literal l => l.span.stop

/-! ### Landmarks -/

def landmarks : Constituent → List Landmark
  | .node (.decl d) => d.landmarks
  | .node (.func f) => f.landmarks
  | .node (.stmt s) => s.landmarks
  | .node (.expr e) => e.landmarks
  | .node (.type t) => t.landmarks
  | .node (.field f) => f.landmarks
  | .node (.sig s) => s.landmarks
  | .spec s => s.landmarks
  | .fields l => l.landmarks
  | .block b => b.landmarks
  | .name i => [i.landmark]
  | .literal l => [l.landmark]

@[simp] theorem landmarks_decl (d : GenDecl) : (decl d).landmarks = d.landmarks := rfl

@[simp] theorem landmarks_stmt (s : Stmt) : (stmt s).landmarks = s.landmarks := rfl

@[simp] theorem landmarks_expr (e : Expr) : (expr e).landmarks = e.landmarks := rfl

@[simp] theorem landmarks_type (t : TypeExpr) : (type t).landmarks = t.landmarks := rfl

@[simp] theorem landmarks_field (f : Field) : (field f).landmarks = f.landmarks := rfl

@[simp] theorem landmarks_sig (s : Signature) : (sig s).landmarks = s.landmarks := rfl

@[simp] theorem landmarks_spec (s : Spec) : (spec s).landmarks = s.landmarks := rfl

@[simp] theorem landmarks_fields (l : FieldList) : (fields l).landmarks = l.landmarks := rfl

@[simp] theorem landmarks_block (b : Block) : (block b).landmarks = b.landmarks := rfl

@[simp] theorem landmarks_name (i : Ident) : (name i).landmarks = [i.landmark] := rfl

@[simp] theorem landmarks_literal (l : Literal) : (literal l).landmarks = [l.landmark] := rfl

/-- The landmarks of constituents, one after the other. -/
def marks (cs : List Constituent) : List Landmark := cs.flatMap landmarks

@[simp] theorem marks_nil : marks [] = [] := rfl

@[simp] theorem marks_cons (c : Constituent) (cs : List Constituent) :
    marks (c :: cs) = c.landmarks ++ marks cs := rfl

@[simp] theorem marks_append (cs ds : List Constituent) : marks (cs ++ ds) = marks cs ++ marks ds :=
  List.flatMap_append

@[simp] theorem marks_exprs (es : List Expr) : marks (es.map expr) = Expr.landmarksAll es := by
  rw [marks, List.flatMap_map, Expr.landmarksAll_eq_flatMap]
  rfl

@[simp] theorem marks_types (ts : List TypeExpr) :
    marks (ts.map type) = TypeExpr.landmarksAll ts := by
  rw [marks, List.flatMap_map, TypeExpr.landmarksAll_eq_flatMap]
  rfl

@[simp] theorem marks_stmts (ss : List Stmt) : marks (ss.map stmt) = Stmt.landmarksAll ss := by
  rw [marks, List.flatMap_map, Stmt.landmarksAll_eq_flatMap]
  rfl

@[simp] theorem marks_fields (fs : List Field) : marks (fs.map field) = Field.landmarksAll fs := by
  rw [marks, List.flatMap_map, Field.landmarksAll_eq_flatMap]
  rfl

@[simp] theorem marks_specs (ss : List Spec) : marks (ss.map spec) = Spec.landmarksAll ss := by
  rw [marks, List.flatMap_map, Spec.landmarksAll_eq_flatMap]
  rfl

@[simp] theorem marks_names (is : List Ident) : marks (is.map name) = is.map Ident.landmark := by
  rw [marks, List.flatMap_map, List.map_eq_flatMap]
  rfl

@[simp] theorem marks_literals (ls : List Literal) :
    marks (ls.map literal) = ls.map Literal.landmark := by
  rw [marks, List.flatMap_map, List.map_eq_flatMap]
  rfl

@[simp] theorem landmarksAll_exprOpt (o : Option Expr) :
    Expr.landmarksAll o.toList = Expr.landmarksOpt o := by
  cases o <;> simp [Expr.landmarksAll, Expr.landmarksOpt]

@[simp] theorem landmarksAll_typeOpt (o : Option TypeExpr) :
    TypeExpr.landmarksAll o.toList = TypeExpr.landmarksOpt o := by
  cases o <;> simp [TypeExpr.landmarksAll, TypeExpr.landmarksOpt]

@[simp] theorem landmarksAll_stmtOpt (o : Option Stmt) :
    Stmt.landmarksAll o.toList = Stmt.landmarksOpt o := by
  cases o <;> simp [Stmt.landmarksAll, Stmt.landmarksOpt]

@[simp] theorem marks_fieldsOpt (o : Option FieldList) :
    marks (o.toList.map fields) = FieldList.landmarksOpt o := by
  cases o <;> simp [FieldList.landmarksOpt]

@[simp] theorem marks_blockOpt (o : Option Block) :
    marks (o.toList.map block) = o.toList.flatMap Block.landmarks := by
  cases o <;> simp

/-! Between the landmarks of its parts a constituent has its own tokens. -/

theorem marks_exprParts (e : Expr) : (marks (exprParts e)).Sublist e.landmarks := by
  cases e <;> simp only [exprParts, Expr.landmarks, marks_append, marks_cons, marks_nil, marks_exprs,
    marks_types, landmarksAll_exprOpt, landmarksAll_typeOpt, landmarks_expr, landmarks_type, landmarks_sig,
    landmarks_block, landmarks_name, landmarks_literal]
  all_goals grind

theorem marks_qualified (q : Option Qualifier) (i : Ident) :
    (marks (q.toList.map (name ·.package) ++ [name i])).Sublist (Qualifier.landmarks q i) := by
  cases q <;> simp [Qualifier.landmarks]

theorem marks_typeParts (t : TypeExpr) : (marks (typeParts t)).Sublist t.landmarks := by
  cases t with
  | named q i => exact marks_qualified q i
  | generic q i lbrack args rbrack =>
    have named := marks_qualified q i
    simp only [typeParts, TypeExpr.landmarks, marks_append, marks_cons, marks_nil, marks_types] at named ⊢
    grind
  | union terms => cases terms <;> simp [typeParts, TypeExpr.landmarks]
  | _ =>
    simp only [typeParts, TypeExpr.landmarks, marks_cons, marks_nil, landmarks_expr, landmarks_type,
      landmarks_sig, landmarks_fields]
    grind

theorem marks_stmtParts (s : Stmt) : (marks (stmtParts s)).Sublist s.landmarks := by
  cases s <;> simp only [stmtParts, Stmt.landmarks, marks_append, marks_cons, marks_nil,
    marks_exprs, marks_stmts, marks_names, landmarksAll_exprOpt, landmarksAll_stmtOpt, landmarks_decl,
    landmarks_expr, landmarks_stmt, landmarks_block, landmarks_name]
  all_goals grind

theorem marks_importNameParts (o : Option ImportName) :
    (marks (o.toList.flatMap importNameParts)).Sublist (o.toList.map ImportName.landmark) := by
  rcases o with _ | _ | _ <;> simp [importNameParts, ImportName.landmark]

theorem marks_fieldParts (f : Field) : (marks (fieldParts f)).Sublist f.landmarks := by
  cases f
  simp [fieldParts, Field.landmarks]

theorem marks_sigParts (s : Signature) : (marks (sigParts s)).Sublist s.landmarks := by
  cases s
  simp [sigParts, Signature.landmarks]

theorem marks_blockParts (b : Block) : (marks (b.stmts.map stmt)).Sublist b.landmarks := by
  cases b
  simp [Block.landmarks]

theorem marks_funcParts (f : FuncDecl) : (marks (funcParts f)).Sublist f.landmarks := by
  simp [funcParts, FuncDecl.landmarks]

variable {ok : Landmark → Prop} {lo hi : Nat}

theorem marks_specParts : ∀ s : Spec, InOrder ok hi lo s.landmarks →
    (marks (specParts s)).Sublist s.landmarks
  | .importSpec s, _ => by
    have named := marks_importNameParts s.name
    simpa [specParts, Spec.landmarks, ImportSpec.landmarks] using named
  | .valueSpec _ [] _ _ _ _, h => h.1.elim
  | .valueSpec _ (_ :: _) _ none [] _, _ => by simp [specParts, Spec.landmarks]
  | .valueSpec _ (_ :: _) _ (some _) (_ :: _) _, _ => by simp [specParts, Spec.landmarks]
  | .valueSpec _ (_ :: _) _ none (_ :: _) _, h => h.1.elim
  | .valueSpec _ (_ :: _) _ (some _) [] _, h => h.1.elim
  | .typeSpec _ _ _ _ _ _, _ => by simp [specParts, Spec.landmarks]

theorem marks_declParts : ∀ d : GenDecl, InOrder ok hi lo d.landmarks →
    (marks (d.specs.map spec)).Sublist d.landmarks
  | ⟨_, _, _, some _, specs, some _⟩, _ => by
    rw [marks_specs, GenDecl.landmarks]
    exact .cons _ (.cons _ (List.sublist_append_left ..))
  | ⟨_, _, _, none, [_], none⟩, _ => by simp [GenDecl.landmarks]
  | ⟨_, _, _, some _, _, none⟩, h => h.1.elim
  | ⟨_, _, _, none, [], _⟩, h => h.1.elim
  | ⟨_, _, _, none, [_], some _⟩, h => h.1.elim
  | ⟨_, _, _, none, _ :: _ :: _, _⟩, h => h.1.elim

theorem marks_listParts (l : FieldList) (h : InOrder ok hi lo l.landmarks) :
    (marks (l.fields.map field)).Sublist l.landmarks := by
  -- Without brackets a list has one field.
  obtain ⟨_ | _, fields⟩ := l
  · obtain _ | ⟨f, _ | ⟨_, _⟩⟩ := fields
    · exact h.1.elim
    · simp [FieldList.landmarks]
    · exact h.1.elim
  · simp [FieldList.landmarks]

theorem marks_parts : ∀ c : Constituent, InOrder ok hi lo c.landmarks →
    (marks c.parts).Sublist c.landmarks
  | .node (.decl d), h => marks_declParts d h
  | .node (.func f), _ => marks_funcParts f
  | .node (.stmt s), _ => marks_stmtParts s
  | .node (.expr e), _ => marks_exprParts e
  | .node (.type t), _ => marks_typeParts t
  | .node (.field f), _ => marks_fieldParts f
  | .node (.sig s), _ => marks_sigParts s
  | .spec s, h => marks_specParts s h
  | .fields l, h => marks_listParts l h
  | .block b, _ => marks_blockParts b
  | .name _, _ => List.nil_sublist _
  | .literal _, _ => List.nil_sublist _

/-! ### Extents -/

theorem begins : ∀ c : Constituent, InOrder ok hi lo c.landmarks → Begins c.landmarks c.pos
  | .node (.decl d), h => d.begins h
  | .node (.func _), _ => begins_cons
  | .node (.stmt s), h => s.begins h
  | .node (.expr e), h => e.begins h
  | .node (.type t), h => t.begins h
  | .node (.field f), h => f.begins h
  | .node (.sig s), h => s.begins h
  | .spec s, h => s.begins h
  | .fields l, h => l.begins h
  | .block b, _ => b.begins
  | .name _, _ => begins_cons
  | .literal _, _ => begins_cons

theorem stops : ∀ c : Constituent, InOrder ok hi lo c.landmarks → Stops c.landmarks c.stop
  | .node (.decl d), h => (d.ends h).stops
  | .node (.func f), h => f.stops h
  | .node (.stmt s), h => s.stops h
  | .node (.expr e), h => (e.ends h).stops
  | .node (.type t), h => (t.ends h).stops
  | .node (.field f), h => (f.ends h).stops
  | .node (.sig s), h => (s.ends h).stops
  | .spec s, h => (s.ends h).stops
  | .fields l, h => by
    obtain ⟨k, stops, ends⟩ := l.ends h
    rw [stop, stops]
    exact ends.stops
  | .block b, _ => b.ends.stops
  | .name _, _ => stops_singleton
  | .literal _, _ => stops_singleton

/-- A constituent stands between the offsets between which its landmarks do, and its landmarks
stand in its extent. -/
theorem extent {c : Constituent} (h : InOrder ok hi lo c.landmarks) :
    lo ≤ c.pos ∧ c.stop ≤ hi ∧ InOrder ok c.stop c.pos c.landmarks :=
  h.extent (c.begins h) (c.stops h)

/-- Each of some constituents in order is in order itself. -/
theorem inOrder_of_mem {cs : List Constituent} (h : InOrder ok hi lo (marks cs)) :
    ∀ c ∈ cs, InOrder ok hi lo c.landmarks := by
  intro c mem
  obtain ⟨before, behind, rfl⟩ := List.append_of_mem mem
  rw [marks_append, marks_cons] at h
  exact h.right.left

/-- Constituents in order stand one behind the other. -/
theorem apart_of_inOrder {cs : List Constituent} (h : InOrder ok hi lo (marks cs)) :
    cs.Pairwise fun c d => c.stop ≤ d.pos := by
  induction cs generalizing lo with
  | nil => exact .nil
  | cons c cs ih =>
    obtain ⟨mid, first, rest⟩ := inOrder_append.mp h
    refine .cons (fun d mem => ?_) (ih rest)
    have ends := (extent first).2.1
    have begins := (extent (inOrder_of_mem rest d mem)).1
    exact Nat.le_trans ends begins

/-- The extents of the parts of a constituent lie in its own, one behind the other. -/
structure Nested (c : Constituent) : Prop where
  pos_le_stop : c.pos ≤ c.stop
  inside : ∀ p ∈ c.parts, c.pos ≤ p.pos ∧ p.stop ≤ c.stop
  apart : c.parts.Pairwise fun p q => p.stop ≤ q.pos

/-- The parts of a constituent in order are in order over its extent. -/
theorem parts_inOrder {c : Constituent} (h : InOrder ok hi lo c.landmarks) :
    InOrder ok c.stop c.pos (marks c.parts) := by
  obtain ⟨-, -, inside⟩ := extent h
  exact inside.sublist (c.marks_parts inside)

theorem nested_of_inOrder {c : Constituent} (h : InOrder ok hi lo c.landmarks) : c.Nested := by
  have parts := parts_inOrder h
  refine ⟨parts.le, fun p mem => ?_, apart_of_inOrder parts⟩
  obtain ⟨low, high, -⟩ := extent (inOrder_of_mem parts p mem)
  exact ⟨low, high⟩

end Constituent

namespace SourceFile

variable {ok : Landmark → Prop} {lo hi : Nat} {f : SourceFile} {c : Constituent}

theorem marks_tops (f : SourceFile) : (Constituent.marks f.tops).Sublist f.landmarks := by
  refine .cons _ (.cons _ ?_)
  rw [tops]
  induction f.decls with
  | nil => exact .slnil
  | cons d ds ih =>
    have here : d.toConstituent.landmarks.Sublist d.landmarks := by
      cases d <;> exact List.sublist_cons_self ..
    exact here.append ih

/-- Each constituent of a file whose landmarks are in order is in order. -/
theorem Has.inOrder (h : InOrder ok hi lo f.landmarks) (has : f.Has c) :
    InOrder ok hi lo c.landmarks := by
  induction has with
  | top mem => exact Constituent.inOrder_of_mem (h.sublist f.marks_tops) _ mem
  | part _ mem ih =>
    obtain ⟨low, high, -⟩ := Constituent.extent ih
    exact (Constituent.inOrder_of_mem (Constituent.parts_inOrder ih) _ mem).widen low high

/-- In a file as it is read, every declaration, spec, function, statement, expression, type, field
and signature begins where it ends or before, within the source; its parts stand in it, in the order
of its fields, each before the next one; and so do the declarations in the file. -/
theorem extents_nest {src : String} (read : parse src = .ok f) :
    (∀ m, f.Has (.node m) ↔ m ∈ f.nodes) ∧
      (f.tops.Pairwise fun c d => c.stop ≤ d.pos) ∧
      ∀ c, f.Has c → c.Nested ∧ c.stop ≤ src.utf8ByteSize := by
  have inOrder := inOrder_of_parse (P := fun _ => True) read fun _ _ _ => trivial
  refine ⟨fun m => has_node_iff, Constituent.apart_of_inOrder (inOrder.sublist f.marks_tops), ?_⟩
  intro c has
  have here := has.inOrder inOrder
  exact ⟨Constituent.nested_of_inOrder here, (Constituent.extent here).2.1⟩

/-- A function without a body that takes a receiving channel and has its result without parentheses,
and a label in front of nothing: the statement there begins and ends at the brace. -/
theorem extents_nest_of_fallbacks :
    ∃ f, parse "package p\n\nfunc f(<-chan T) U\n\nfunc g() \x7b\nL:\n\x7d\n" = .ok f ∧
      f.nodes.map (fun m => (m.pos, m.stop)) = [(11, 29), (17, 29), (18, 26), (18, 26), (25, 26),
        (28, 29), (28, 29), (31, 46), (37, 39), (42, 45), (45, 45)] ∧
      ∀ c, f.Has c → c.Nested ∧ c.stop ≤ 47 := by
  generalize source : parse _ = parsed
  have extents : parsed.toOption.map (fun f => f.nodes.map fun m => (m.pos, m.stop)) =
      some [(11, 29), (17, 29), (18, 26), (18, 26), (25, 26), (28, 29), (28, 29), (31, 46), (37, 39),
        (42, 45), (45, 45)] := by
    rw [← source]
    decide +kernel
  cases parsed with
  | error e => cases extents
  | ok f => exact ⟨f, rfl, Option.some.inj extents, (extents_nest source).2.2⟩

end SourceFile

end GoLayout
