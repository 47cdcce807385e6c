import GoLayout.Proofs.Settle.Law
import GoLayout.Proofs.Tidy.Nodes
import GoLayout.Proofs.Words.Imports
import Mathlib.Data.Option.Basic

/-!
What tidied nodes have in common with the nodes they come from, told from their parts.
-/

namespace GoLayout

variable {O : Nat → Prop} {k : Setting} {t : LineTable}

/-! ### Expressions -/

theorem Expr.Like.of {e e' : Expr} (pos : e'.pos = e.pos) (stop : e'.stop = e.stop)
    (composite : e'.isComposite = e.isComposite) (name : ∀ text, e'.isName text = e.isName text)
    (check : e'.comparesErr = e.comparesErr) : e.Like e' :=
  ⟨by simp only [Expr.place, pos, stop, composite], name, check⟩

theorem Expr.comparesErr_binary {left right : Expr} {op : BinaryOp} {opPos : Span} :
    (Expr.binary left op opPos right).comparesErr =
      (op == .ne && (left.isName "err" && right.isName "nil")) := by
  cases op <;> rfl

/-! ### Types and fields -/

theorem TypeExpr.like_union {ts ts' : List TypeExpr} (h : List.Forall₂ TypeExpr.Like ts ts') :
    (TypeExpr.union ts).Like (.union ts') where
  pos := by
    cases h with
    | nil => rfl
    | cons like _ => exact like.pos
  stop := by
    induction h with
    | nil => rfl
    | cons like likes ih =>
      cases likes with
      | nil => exact like.stop
      | cons _ _ => exact ih

theorem Field.Like.of_type {doc comment : Link} {names : List Ident} {type type' : TypeExpr}
    {tag : Option Literal} (h : type.Like type') :
    Field.Like ⟨doc, names, type, tag, comment⟩ ⟨doc, names, type', tag, comment⟩ where
  pos := by
    cases names with
    | nil => exact h.pos
    | cons _ _ => rfl
  stop := by
    cases tag with
    | none => exact h.stop
    | some _ => rfl

namespace FieldList.Like

variable {l l' : FieldList}

theorem pos (h : l.Like l') : l'.pos = l.pos := by
  obtain ⟨brackets, fields⟩ := l
  obtain ⟨brackets', fields'⟩ := l'
  obtain ⟨same, single⟩ := h
  dsimp only at same single
  subst same
  cases brackets' with
  | some b => rfl
  | none =>
    obtain ⟨f, f', rfl, rfl, alike⟩ := single rfl
    exact alike.pos

theorem stop? (h : l.Like l') : l'.stop? = l.stop? := by
  obtain ⟨brackets, fields⟩ := l
  obtain ⟨brackets', fields'⟩ := l'
  obtain ⟨same, single⟩ := h
  dsimp only at same single
  subst same
  cases brackets' with
  | some b => rfl
  | none =>
    obtain ⟨f, f', rfl, rfl, alike⟩ := single rfl
    exact congrArg some alike.stop

theorem mergeMarked (h : l.Like l') (marks : List Bool) : l.Like (l'.mergeMarked marks) := by
  obtain ⟨brackets', fields'⟩ := l'
  cases fields' with
  | nil => exact h
  | cons f' rest =>
    refine ⟨h.brackets, fun none => ?_⟩
    obtain ⟨f, f'', fields, single, alike⟩ := h.single none
    cases single
    exact ⟨f, f', fields, by cases marks <;> rfl, alike⟩

theorem mergeMarkedOpt {o o' : Option FieldList} (h : Option.Rel FieldList.Like o o')
    (marks : List Bool) : Option.Rel FieldList.Like o (o'.map (·.mergeMarked marks)) := by
  cases h with
  | none => exact .none
  | some like => exact .some (like.mergeMarked marks)

end FieldList.Like

theorem AllTidy.mergeFields {last : Field} {rest : List Field} {marks : List Bool}
    (ofLast : AllTidy k t last.nodes) (ofRest : AllTidy k t (Field.nodesAll rest)) :
    AllTidy k t (Field.nodesAll (Field.mergeMarked last rest marks)) := by
  fun_induction Field.mergeMarked last rest marks with
  | case1 last f rest marks ih =>
    obtain ⟨_, _, type, _, _⟩ := last
    refine ih ?_ fun m mem => ofRest m (List.mem_append_right _ mem)
    exact .node trivial fun m mem => ofLast m (List.mem_cons_of_mem _ mem)
  | case2 last f rest marks ih =>
    exact .append ofLast (ih (fun m mem => ofRest m (List.mem_append_left _ mem))
      fun m mem => ofRest m (List.mem_append_right _ mem))
  | case3 => exact .append ofLast ofRest

theorem AllTidy.mergeMarked {l : FieldList} (marks : List Bool) (h : AllTidy k t l.nodes) :
    AllTidy k t (l.mergeMarked marks).nodes := by
  obtain ⟨brackets, fields⟩ := l
  cases fields with
  | nil => exact h
  | cons f rest =>
    exact .mergeFields (fun m mem => h m (List.mem_append_left _ mem))
      fun m mem => h m (List.mem_append_right _ mem)

/-- The nodes in an optional list are those of the list. -/
theorem AllTidy.mergeMarkedOpt {o : Option FieldList} (marks : List Bool)
    (h : AllTidy k t (FieldList.nodesOpt o)) :
    AllTidy k t (FieldList.nodesOpt (o.map (·.mergeMarked marks))) := by
  cases o with
  | none => exact .nil
  | some l => exact AllTidy.mergeMarked marks h

theorem Signature.Like.of_fields {params params' : FieldList} {results results' : Option FieldList}
    (ofParams : params.Like params') (ofResults : Option.Rel FieldList.Like results results') :
    Signature.Like ⟨params, results⟩ ⟨params', results'⟩ := by
  refine ⟨ofParams.pos, ?_⟩
  cases ofResults with
  | none =>
    change params'.stop?.getD 0 = params.stop?.getD 0
    rw [ofParams.stop?]
  | some alike =>
    rename_i r r'
    change (r'.stop?.or params'.stop?).getD 0 = (r.stop?.or params.stop?).getD 0
    rw [ofParams.stop?, alike.stop?]

/-! ### Statements and specs -/

theorem Expr.lastStop_of_like {es es' : List Expr} {x : Nat} (h : List.Forall₂ Expr.Like es es') :
    es'.getLast?.elim x Expr.stop = es.getLast?.elim x Expr.stop := by
  induction h with
  | nil => rfl
  | cons like likes ih =>
    cases likes with
    | nil => exact like.stop
    | cons _ _ => simpa only [List.getLast?_cons_cons] using ih

theorem Expr.lastIsName_of_like {es es' : List Expr} {text : String}
    (h : List.Forall₂ Expr.Like es es') :
    es'.getLast?.any (·.isName text) = es.getLast?.any (·.isName text) := by
  induction h with
  | nil => rfl
  | cons like likes ih =>
    cases likes with
    | nil => exact like.name text
    | cons _ _ => simpa only [List.getLast?_cons_cons] using ih

theorem Stmt.Like.of {s s' : Stmt} (pos : s'.pos = s.pos) (stop : s'.stop = s.stop)
    (defines : s'.definesErr = s.definesErr) (checks : s'.checksErr = s.checksErr) : s.Like O k t s' :=
  ⟨.inl pos, .inl stop, fun holds => .inl ⟨defines ▸ holds, stop⟩, fun holds => ⟨checks ▸ holds, pos⟩⟩

theorem Stmt.like_assign {lhs lhs' rhs rhs' : List Expr} {op : AssignOp} {opPos : Span}
    (ofLhs : List.Forall₂ Expr.Like lhs lhs') (ofRhs : List.Forall₂ Expr.Like rhs rhs') :
    Stmt.Like O k t (.assign lhs op opPos rhs) (.assign lhs' op opPos rhs') := by
  have stop : (Stmt.assign lhs' op opPos rhs').stop = (Stmt.assign lhs op opPos rhs).stop :=
    Expr.lastStop_of_like ofRhs
  have pos : (Stmt.assign lhs' op opPos rhs').pos = (Stmt.assign lhs op opPos rhs).pos := by
    cases ofLhs with
    | nil => rfl
    | cons like _ => exact like.pos
  refine .of pos stop ?_ rfl
  cases op with
  | define => exact Expr.lastIsName_of_like ofLhs
  | _ => rfl

theorem Stmt.lastStop_of_like {ss ss' : List Stmt} (h : List.Forall₂ (Stmt.Like O k t) ss ss')
    (x : Nat) : k.Closes O t ((Stmt.lastStop? ss).getD x) ((Stmt.lastStop? ss').getD x) := by
  induction h with
  | nil => exact .inl rfl
  | cons like likes ih =>
    cases likes with
    | nil => exact like.stop
    | cons _ _ => exact ih

theorem Stmt.checksErr_ifElse {ifPos : Span} {init orElse : Option Stmt} {cond : Expr}
    {body : Block} : (Stmt.ifElse ifPos init cond body orElse).checksErr =
      (init.isNone && orElse.isNone && cond.comparesErr) := by
  cases cond with
  | binary _ op _ _ => cases op <;> cases init <;> cases orElse <;> rfl
  | _ => cases init <;> cases orElse <;> rfl

theorem Stmt.like_ifElse {ifPos : Span} {init init' orElse orElse' : Option Stmt}
    {cond cond' : Expr} {body body' : Block} (ofInit : Option.Rel (Stmt.Like O k t) init init')
    (ofCond : cond.Like cond') (close : body'.rbrace = body.rbrace)
    (ofElse : Option.Rel (Stmt.Like O k t) orElse orElse') :
    Stmt.Like O k t (.ifElse ifPos init cond body orElse) (.ifElse ifPos init' cond' body' orElse') where
  pos := .inl rfl
  stop := by
    cases ofElse with
    | none => exact .inl (congrArg Span.stop close)
    | some like => exact like.stop
  defines := nofun
  checks := by
    have sameInit : init'.isNone = init.isNone := by cases ofInit <;> rfl
    have sameElse : orElse'.isNone = orElse.isNone := by cases ofElse <;> rfl
    intro checks
    rw [Stmt.checksErr_ifElse, sameInit, sameElse, ofCond.check] at checks
    rw [Stmt.checksErr_ifElse]
    exact ⟨checks, rfl⟩

theorem Spec.stop_eq_elim {doc comment : Link} {names : List Ident} {type : Option TypeExpr}
    {assign : Option Span} {values : List Expr} :
    (Spec.valueSpec doc names type assign values comment).stop = values.getLast?.elim
      (type.elim (names.getLast?.elim 0 (·.span.stop)) TypeExpr.stop) Expr.stop := by
  cases last : values.getLast? with
  | some value => rw [Spec.stop_of_values last, Option.elim_some]
  | none => cases type <;> simp only [Spec.stop, last, Option.elim_none, Option.elim_some]

theorem Spec.like_value {doc comment : Link} {name : Ident} {names : List Ident}
    {type type' : Option TypeExpr} {assign : Option Span} {values values' : List Expr}
    (ofType : Option.Rel TypeExpr.Like type type') (ofValues : List.Forall₂ Expr.Like values values') :
    Spec.Like (.valueSpec doc (name :: names) type assign values comment)
      (.valueSpec doc (name :: names) type' assign values' comment) where
  pos := rfl
  stop := by
    rw [Spec.stop_eq_elim, Spec.stop_eq_elim, Expr.lastStop_of_like ofValues]
    cases ofType with
    | none => rfl
    | some like => rw [Option.elim_some, Option.elim_some, like.stop]
  named := nofun

end GoLayout
