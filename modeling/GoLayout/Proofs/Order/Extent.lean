import GoLayout.Proofs.Order.Landmark

/-!
Where nodes begin and end: a node whose landmarks are in order begins where the first one starts
and ends where the last one stops, and so its landmarks are in order over its own extent.
-/

namespace GoLayout

variable {ok : Landmark → Prop} {lo hi : Nat}

open Landmark (InOrder Begins Stops Ends begins_cons stops_singleton ends_singleton)

/-! ### Where nodes begin -/

theorem Qualifier.begins (q : Option Qualifier) (name : Ident) :
    Begins (Qualifier.landmarks q name) (q.elim name (·.package)).span.start := by
  cases q with
  | none => exact begins_cons
  | some q => exact begins_cons

mutual

theorem Expr.begins :
    ∀ e : Expr, InOrder ok hi lo e.landmarks → Begins e.landmarks e.pos
  | .ident _, _ => begins_cons
  | .literal _, _ => begins_cons
  | .func _ _ _, _ => begins_cons
  | .composite (some t) _ _ _, h => (t.begins h.left).append
  | .composite none _ _ _, _ => begins_cons
  | .paren _ _ _, _ => begins_cons
  | .selector e _ _, h => (e.begins h.left).append
  | .index e _ _ _, h => (e.begins h.left).append
  | .slice e _ _ _ _ _ _, h => (e.begins h.left).append
  | .assertion e _ _ _ _, h => (e.begins h.left).append
  | .call e _ _ _ _, h => (e.begins h.left).append
  | .unary _ _ _, _ => begins_cons
  | .binary e _ _ _, h => (e.begins h.left).append
  | .keyValue e _ _, h => (e.begins h.left).append
  | .type t, h => t.begins h

theorem TypeExpr.begins :
    ∀ t : TypeExpr, InOrder ok hi lo t.landmarks → Begins t.landmarks t.pos
  | .named q name, _ => Qualifier.begins q name
  | .generic q name _ _ _, _ => (Qualifier.begins q name).append
  | .pointer _ _, _ => begins_cons
  | .array _ _ _ _, _ => begins_cons
  | .countedArray _ _ _ _, _ => begins_cons
  | .slice _ _ _, _ => begins_cons
  | .map _ _ _ _ _, _ => begins_cons
  | .chan .both _ _, _ => begins_cons
  | .chan (.send _) _ _, _ => begins_cons
  | .chan (.recv _) _ _, _ => begins_cons
  | .struct _ _, _ => begins_cons
  | .interface _ _, _ => begins_cons
  | .func (some _) _, _ => begins_cons
  | .func none sig, h => sig.begins h
  | .paren _ _ _, _ => begins_cons
  | .variadic _ _, _ => begins_cons
  | .union [], h => h.1.elim
  | .union (t :: _), h => (t.begins h.left).append
  | .tilde _ _, _ => begins_cons

theorem Signature.begins :
    ∀ s : Signature, InOrder ok hi lo s.landmarks → Begins s.landmarks s.pos
  | ⟨params, _⟩, h => (params.begins h.left).append

theorem FieldList.begins :
    ∀ l : FieldList, InOrder ok hi lo l.landmarks → Begins l.landmarks l.pos
  | ⟨some _, _⟩, _ => begins_cons
  | ⟨none, [f]⟩, h => f.begins h
  | ⟨none, []⟩, h => h.1.elim
  | ⟨none, _ :: _ :: _⟩, h => h.1.elim

theorem Field.begins :
    ∀ f : Field, InOrder ok hi lo f.landmarks → Begins f.landmarks f.pos
  | ⟨_, _ :: _, _, _, _⟩, _ => begins_cons
  | ⟨_, [], type, _, _⟩, h => (type.begins h.left).append

end

/-! ### Where nodes end -/

theorem Ident.ends_names {names : List Ident} :
    ∀ i ∈ names.getLast?, Ends (names.map Ident.landmark) i.span.stop := by
  intro i last
  obtain ⟨front, rfl⟩ := List.getLast?_eq_some_iff.mp last
  exact ⟨front.map Ident.landmark, i.span, by simp [Ident.landmark], rfl⟩

theorem Qualifier.ends (q : Option Qualifier) (name : Ident) :
    Ends (Qualifier.landmarks q name) name.span.stop :=
  Ends.append ends_singleton

mutual

theorem Expr.ends :
    ∀ e : Expr, InOrder ok hi lo e.landmarks → Ends e.landmarks e.stop
  | .ident _, _ => ends_singleton
  | .literal _, _ => ends_singleton
  | .func _ _ ⟨_, _, _⟩, _ => Ends.cons (.append (.cons (.append ends_singleton)))
  | .composite _ _ _ _, _ => Ends.append (.cons (.append ends_singleton))
  | .paren _ _ _, _ => Ends.cons (.append ends_singleton)
  | .selector _ _ _, _ => Ends.append (.cons ends_singleton)
  | .index _ _ _ _, _ => Ends.append (.cons (.append ends_singleton))
  | .slice _ _ _ _ _ _ _, _ => Ends.append (.cons (.append ends_singleton))
  | .assertion _ _ _ _ _, _ => Ends.append (.cons (.cons (.append ends_singleton)))
  | .call _ _ _ _ _, _ => Ends.append (.cons (.append ends_singleton))
  | .unary _ _ e, h => (e.ends h.tail).cons
  | .binary _ _ _ e, h => Ends.append (e.ends h.right.tail).cons
  | .keyValue _ _ e, h => Ends.append (e.ends h.right.tail).cons
  | .type t, h => t.ends h

theorem TypeExpr.ends :
    ∀ t : TypeExpr, InOrder ok hi lo t.landmarks → Ends t.landmarks t.stop
  | .named q name, _ => Qualifier.ends q name
  | .generic _ _ _ _ _, _ => Ends.append (.cons (.append ends_singleton))
  | .pointer _ t, h => (t.ends h.tail).cons
  | .array _ _ _ t, h => Ends.cons (.append (t.ends h.tail.right.tail).cons)
  | .countedArray _ _ _ t, h => (t.ends h.tail.tail.tail).cons.cons.cons
  | .slice _ _ t, h => (t.ends h.tail.tail).cons.cons
  | .map _ _ _ _ t, h => Ends.cons (.cons (.append (t.ends h.tail.tail.right.tail).cons))
  | .chan _ _ t, h => Ends.append (t.ends h.right)
  | .struct _ fields, h => by
    obtain ⟨k, stops, ends⟩ := fields.ends h.tail
    rw [TypeExpr.stop, stops]
    exact ends.cons
  | .interface _ elements, h => by
    obtain ⟨k, stops, ends⟩ := elements.ends h.tail
    rw [TypeExpr.stop, stops]
    exact ends.cons
  | .func _ sig, h => Ends.append (sig.ends h.right)
  | .paren _ _ _, _ => Ends.cons (.append ends_singleton)
  | .variadic _ t, h => (t.ends h.tail).cons
  | .union terms, h => TypeExpr.ends_terms terms h
  | .tilde _ t, h => (t.ends h.tail).cons

theorem TypeExpr.ends_terms :
    ∀ ts : List TypeExpr, InOrder ok hi lo (TypeExpr.landmarks (.union ts)) →
      Ends (TypeExpr.landmarks (.union ts)) (TypeExpr.lastStop ts)
  | [], h => h.1.elim
  | [t], h => by
    change Ends (t.landmarks ++ []) t.stop
    rw [List.append_nil]
    exact t.ends h.left
  | _ :: t :: ts, h => Ends.append (TypeExpr.ends_terms (t :: ts) h.right)

theorem Signature.ends :
    ∀ s : Signature, InOrder ok hi lo s.landmarks → Ends s.landmarks s.stop
  | ⟨params, none⟩, h => by
    obtain ⟨k, stops, ends⟩ := params.ends h.left
    rw [Signature.stop, stops]
    change Ends (params.landmarks ++ []) k
    rwa [List.append_nil]
  | ⟨params, some results⟩, h => by
    obtain ⟨k, stops, ends⟩ := results.ends h.right
    rw [Signature.stop, stops]
    exact Ends.append ends

theorem FieldList.ends :
    ∀ l : FieldList, InOrder ok hi lo l.landmarks → ∃ k, l.stop? = some k ∧ Ends l.landmarks k
  | ⟨some _, _⟩, _ => ⟨_, rfl, Ends.cons (.append ends_singleton)⟩
  | ⟨none, [f]⟩, h => ⟨f.stop, rfl, f.ends h⟩
  | ⟨none, []⟩, h => h.1.elim
  | ⟨none, _ :: _ :: _⟩, h => h.1.elim

theorem Field.ends :
    ∀ f : Field, InOrder ok hi lo f.landmarks → Ends f.landmarks f.stop
  | ⟨_, _, _, some _, _⟩, _ => Ends.append ends_singleton
  | ⟨_, _, type, none, _⟩, h => by
    change Ends (_ ++ type.landmarks ++ []) type.stop
    rw [List.append_nil]
    exact Ends.append (type.ends h.left.right)

end

theorem Expr.ends_all {es : List Expr} (h : InOrder ok hi lo (Expr.landmarksAll es)) :
    ∀ e ∈ es.getLast?, Ends (Expr.landmarksAll es) e.stop := by
  intro e last
  obtain ⟨front, rfl⟩ := List.getLast?_eq_some_iff.mp last
  rw [Expr.landmarksAll_eq_flatMap, List.flatMap_append] at h ⊢
  rw [List.flatMap_singleton] at h ⊢
  exact Ends.append (e.ends h.right)

/-! ### Declarations and statements -/

theorem Spec.begins :
    ∀ s : Spec, InOrder ok hi lo s.landmarks → Begins s.landmarks s.pos
  | .importSpec ⟨_, some (.dot _), _, _⟩, _ => begins_cons
  | .importSpec ⟨_, some (.name _), _, _⟩, _ => begins_cons
  | .importSpec ⟨_, none, _, _⟩, _ => begins_cons
  | .valueSpec _ [] _ _ _ _, h => h.1.elim
  | .valueSpec _ (_ :: _) _ none [] _, _ => begins_cons
  | .valueSpec _ (_ :: _) _ (some _) (_ :: _) _, _ => begins_cons
  | .valueSpec _ (_ :: _) _ none (_ :: _) _, h => h.1.elim
  | .valueSpec _ (_ :: _) _ (some _) [] _, h => h.1.elim
  | .typeSpec _ _ _ _ _ _, _ => begins_cons

theorem Spec.stop_of_values {doc comment : Link} {names : List Ident} {type : Option TypeExpr}
    {assign : Option Span} {values : List Expr} {value : Expr} (last : values.getLast? = some value) :
    (Spec.valueSpec doc names type assign values comment).stop = value.stop := by
  simp only [Spec.stop, last]

theorem Spec.stop_of_names {doc comment : Link} {names : List Ident} {assign : Option Span}
    {name : Ident} (last : names.getLast? = some name) :
    (Spec.valueSpec doc names none assign [] comment).stop = name.span.stop := by
  simp only [Spec.stop, List.getLast?_nil, last, Option.elim_some]

theorem Spec.ends : ∀ s : Spec, InOrder ok hi lo s.landmarks → Ends s.landmarks s.stop
  | .importSpec _, _ => Ends.append ends_singleton
  | .typeSpec _ _ _ _ type _, h => Ends.cons (.append (type.ends h.tail.right))
  | .valueSpec _ [] _ _ _ _, h => h.1.elim
  | .valueSpec _ (name :: names) (some type) none [] _, h => Ends.append (type.ends h.right)
  | .valueSpec _ (name :: names) none none [] _, h => by
    have last := List.getLast?_eq_some_getLast (List.cons_ne_nil name names)
    rw [Spec.stop_of_names last]
    change Ends ((name :: names).map Ident.landmark ++ []) _
    rw [List.append_nil]
    exact Ident.ends_names _ last
  | .valueSpec _ (name :: names) type (some assign) (value :: values) _, h => by
    have last := List.getLast?_eq_some_getLast (List.cons_ne_nil value values)
    have behind : InOrder ok _ _ (Expr.landmarksAll (value :: values)) := h.right.tail
    rw [Spec.stop_of_values last]
    exact Ends.append (.cons (Expr.ends_all behind _ last))
  | .valueSpec _ (_ :: _) _ none (_ :: _) _, h => h.1.elim
  | .valueSpec _ (_ :: _) _ (some _) [] _, h => h.1.elim

theorem GenDecl.begins :
    ∀ d : GenDecl, InOrder ok hi lo d.landmarks → Begins d.landmarks d.pos
  | ⟨_, _, _, some _, _, some _⟩, _ => begins_cons
  | ⟨_, _, _, none, [_], none⟩, _ => begins_cons
  | ⟨_, _, _, some _, _, none⟩, h => h.1.elim
  | ⟨_, _, _, none, [], _⟩, h => h.1.elim
  | ⟨_, _, _, none, [_], some _⟩, h => h.1.elim
  | ⟨_, _, _, none, _ :: _ :: _, _⟩, h => h.1.elim

theorem GenDecl.ends :
    ∀ d : GenDecl, InOrder ok hi lo d.landmarks → Ends d.landmarks d.stop
  | ⟨_, _, _, some _, _, some _⟩, _ => Ends.cons (.cons (.append ends_singleton))
  | ⟨_, _, _, none, [s], none⟩, h => (s.ends h.tail).cons
  | ⟨_, _, _, some _, _, none⟩, h => h.1.elim
  | ⟨_, _, _, none, [], _⟩, h => h.1.elim
  | ⟨_, _, _, none, [_], some _⟩, h => h.1.elim
  | ⟨_, _, _, none, _ :: _ :: _, _⟩, h => h.1.elim

theorem Block.begins (b : Block) : Begins b.landmarks b.lbrace.start := by
  cases b
  exact begins_cons

theorem Block.ends (b : Block) : Ends b.landmarks b.rbrace.stop := by
  cases b
  exact Ends.cons (.append ends_singleton)

theorem Stmt.begins :
    ∀ s : Stmt, InOrder ok hi lo s.landmarks → Begins s.landmarks s.pos
  | .decl _, _ => begins_cons
  | .empty _, _ => begins_cons
  | .labeled _ _ _, _ => begins_cons
  | .expr e, h => e.begins h
  | .send e _ _, h => (e.begins h.left).append
  | .incDec e _ _, h => (e.begins h.left).append
  | .assign [] _ _ _, _ => begins_cons
  | .assign (e :: _) _ _ _, h => (e.begins h.left.left).append.append
  | .go _ _, _ => begins_cons
  | .defer _ _, _ => begins_cons
  | .returns _ _, _ => begins_cons
  | .branch _ _ _, _ => begins_cons
  | .block b, _ => b.begins
  | .ifElse _ _ _ _ _, _ => begins_cons
  | .caseClause _ _ _ _, _ => begins_cons
  | .switch _ _ _ _, _ => begins_cons
  | .typeSwitch _ _ _ _, _ => begins_cons
  | .commClause _ _ _ _, _ => begins_cons
  | .select _ _, _ => begins_cons
  | .forLoop _ _ _ _ _, _ => begins_cons
  | .range _ _ _ _ _ _ _, _ => begins_cons

theorem Stmt.ends_assign {lhs rhs : List Expr} {op : AssignOp} {opPos : Span}
    (h : InOrder ok hi lo (Stmt.assign lhs op opPos rhs).landmarks) :
    Ends (Stmt.assign lhs op opPos rhs).landmarks (Stmt.assign lhs op opPos rhs).stop := by
  cases rhs with
  | nil => exact Ends.append ends_singleton
  | cons e es =>
    have last := List.getLast?_eq_some_getLast (List.cons_ne_nil e es)
    rw [Stmt.stop, last]
    exact Ends.append (.cons (Expr.ends_all h.right.tail _ last))

theorem Stmt.lastStop?_eq_none : ∀ ss : List Stmt, Stmt.lastStop? ss = none → ss = []
  | [], _ => rfl
  | [_], h => nomatch h
  | _ :: s :: ss, h => nomatch Stmt.lastStop?_eq_none (s :: ss) h

mutual

theorem Stmt.stops :
    ∀ s : Stmt, InOrder ok hi lo s.landmarks → Stops s.landmarks s.stop
  | .decl d, h => (d.ends h.tail).cons.stops
  | .empty _, _ => stops_singleton
  | .labeled _ _ s, h => (s.stops h.tail.tail).cons.cons
  | .expr e, h => (e.ends h).stops
  | .send _ _ e, h => Stops.append (e.ends h.right.tail).stops.cons
  | .incDec _ _ _, _ => Stops.append stops_singleton
  | .assign _ _ _ _, h => (Stmt.ends_assign h).stops
  | .go _ e, h => (e.ends h.tail).stops.cons
  | .defer _ e, h => (e.ends h.tail).stops.cons
  | .returns _ [], _ => stops_singleton
  | .returns _ (e :: es), h => by
    have last := List.getLast?_eq_some_getLast (List.cons_ne_nil e es)
    rw [Stmt.stop, last]
    exact (Expr.ends_all h.tail _ last).stops.cons
  | .branch _ _ none, _ => stops_singleton
  | .branch _ _ (some _), _ => Stops.cons stops_singleton
  | .block b, _ => b.ends.stops
  | .ifElse _ _ _ b none, h => by
    change Stops (_ :: (_ ++ _ ++ b.landmarks ++ [])) b.rbrace.stop
    rw [List.append_nil]
    exact Stops.cons (.append b.ends.stops)
  | .ifElse _ _ _ _ (some s), h => Stops.cons (.append (s.stops h.tail.right))
  | .caseClause _ _ _ body, h => Stops.cons (.append (Stmt.stops_behind _ body h.tail.right))
  | .switch _ _ _ b, _ => Stops.cons (.append b.ends.stops)
  | .typeSwitch _ _ _ b, _ => Stops.cons (.append b.ends.stops)
  | .commClause _ _ _ body, h => Stops.cons (.append (Stmt.stops_behind _ body h.tail.right))
  | .select _ b, _ => b.ends.stops.cons
  | .forLoop _ _ _ _ b, _ => Stops.cons (.append b.ends.stops)
  | .range _ _ _ _ _ _ b, _ => Stops.cons (.append (.cons (.append b.ends.stops)))

theorem Stmt.stops_all :
    ∀ ss : List Stmt, InOrder ok hi lo (Stmt.landmarksAll ss) →
      ∀ stop ∈ Stmt.lastStop? ss, Stops (Stmt.landmarksAll ss) stop
  | [], _, _, last => nomatch last
  | [s], h, _, last => by
    cases last
    change Stops (s.landmarks ++ []) s.stop
    rw [List.append_nil]
    exact s.stops h.left
  | _ :: s :: ss, h, stop, last => Stops.append (Stmt.stops_all (s :: ss) h.right stop last)

/-- Statements behind a colon. -/
theorem Stmt.stops_behind (colon : Span) (ss : List Stmt)
    (h : InOrder ok hi lo (.token colon :: Stmt.landmarksAll ss)) :
    Stops (.token colon :: Stmt.landmarksAll ss) ((Stmt.lastStop? ss).getD colon.stop) := by
  cases last : Stmt.lastStop? ss with
  | none =>
    rw [Stmt.lastStop?_eq_none ss last]
    exact stops_singleton
  | some stop => exact (Stmt.stops_all ss h.tail stop last).cons

end

/-! ### Functions -/

theorem FuncDecl.stops (f : FuncDecl) (h : InOrder ok hi lo f.landmarks) :
    Stops f.landmarks f.stop := by
  obtain ⟨doc, funcPos, receiver, name, typeParams, sig, body⟩ := f
  refine Stops.cons (.append (.cons ?_))
  cases body with
  | none =>
    have behind := h.tail.right.tail.left.right
    change Stops (_ ++ sig.landmarks ++ []) sig.stop
    rw [List.append_nil]
    exact Stops.append (sig.ends behind).stops
  | some b =>
    refine Stops.append ?_
    rw [Option.toList_some, List.flatMap_singleton]
    exact b.ends.stops

/-! ### Extents -/

/-- A node stands between the offsets between which its landmarks do, and its landmarks stand
in its extent. -/
theorem Expr.extent {e : Expr} (h : InOrder ok hi lo e.landmarks) :
    lo ≤ e.pos ∧ e.stop ≤ hi ∧ InOrder ok e.stop e.pos e.landmarks :=
  h.extent (e.begins h) (e.ends h).stops

theorem Stmt.extent {s : Stmt} (h : InOrder ok hi lo s.landmarks) :
    lo ≤ s.pos ∧ s.stop ≤ hi ∧ InOrder ok s.stop s.pos s.landmarks :=
  h.extent (s.begins h) (s.stops h)

theorem Spec.extent_inOrder {s : Spec} (h : InOrder ok hi lo s.landmarks) :
    lo ≤ s.pos ∧ s.stop ≤ hi ∧ InOrder ok s.stop s.pos s.landmarks :=
  h.extent (s.begins h) (s.ends h).stops

theorem FuncDecl.extent {f : FuncDecl} (h : InOrder ok hi lo f.landmarks) :
    lo ≤ f.pos ∧ f.stop ≤ hi ∧ InOrder ok f.stop f.pos f.landmarks :=
  h.extent begins_cons (f.stops h)

end GoLayout
