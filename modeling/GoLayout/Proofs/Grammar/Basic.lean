import GoLayout.Grammar.Expr
import GoLayout.Proofs.Token.Lexeme

/-!
What the rules for expressions and statements take their tokens and operands for: a mark for an
operator, and an expression for a type.
-/

namespace GoLayout

/-! ### Marks that are operators -/

theorem UnaryOp.isSolid_of_ofMark? {m : Mark} {op : UnaryOp} (isOp : ofMark? m = some op) :
    (TokenKind.mark m).isSolid := by
  refine TokenKind.isSolid_mark ?_
  rintro rfl
  cases isOp

theorem BinaryOp.isSolid_of_ofMark? {m : Mark} {op : BinaryOp} (isOp : ofMark? m = some op) :
    (TokenKind.mark m).isSolid := by
  refine TokenKind.isSolid_mark ?_
  rintro rfl
  cases isOp

theorem AssignOp.isSolid_of_ofMark? {m : Mark} {op : AssignOp} (isOp : ofMark? m = some op) :
    (TokenKind.mark m).isSolid := by
  refine TokenKind.isSolid_mark ?_
  rintro rfl
  cases isOp

/-! ### Expressions that are types -/

/-- What expressions and the types they are taken as have in common, construct by construct: `M`
for one expression, and `N` for as many as there are types. -/
structure Expr.AsType (M : Expr → TypeExpr → Prop) (N : List Expr → List TypeExpr → Prop) :
    Prop where
  type : ∀ t, M (.type t) t
  name : ∀ name, M (.ident name) (.named none name)
  member : ∀ package dot member,
    M (.selector (.ident package) dot member) (.named (some ⟨package, dot⟩) member)
  generic : ∀ operand base qualifier name lbrack indices args rbrack, M operand base →
    base.baseName? = some (qualifier, name) → N indices args →
      M (.index operand lbrack indices rbrack) (.generic qualifier name lbrack args rbrack)
  paren : ∀ lparen inner t rparen, M inner t →
    M (.paren lparen inner rparen) (.paren lparen t rparen)
  pointer : ∀ star operand t, M operand t → M (.unary .deref star operand) (.pointer star t)
  nil : N [] []
  cons : ∀ e t es ts, M e t → N es ts → N (e :: es) (t :: ts)

theorem Expr.AsType.all {M : Expr → TypeExpr → Prop} {N : List Expr → List TypeExpr → Prop}
    (h : AsType M N) :
    (∀ e : Expr, ∀ t ∈ e.toType?, M e t) ∧ ∀ es, ∀ ts ∈ Expr.toTypes? es, N es ts := by
  apply Expr.toType?.mutual_induct
  case case1 =>
    rintro t _ ⟨⟩
    exact h.type t
  case case2 =>
    rintro name _ ⟨⟩
    exact h.name name
  case case3 =>
    rintro package dot member _ ⟨⟩
    exact h.member package dot member
  case case4 =>
    intro operand lbrack indices rbrack ofOperand ofIndices t found
    rw [Expr.toType?] at found
    obtain ⟨base, baseFound, found⟩ := Option.bind_eq_some_iff.mp found
    obtain ⟨⟨qualifier, name⟩, named, found⟩ := Option.bind_eq_some_iff.mp found
    obtain ⟨args, argsFound, found⟩ := Option.bind_eq_some_iff.mp found
    cases found
    exact h.generic _ _ _ _ _ _ _ _ (ofOperand base baseFound) named (ofIndices args argsFound)
  case case5 =>
    intro lparen inner rparen ofInner t found
    rw [Expr.toType?] at found
    obtain ⟨type, typeFound, found⟩ := Option.bind_eq_some_iff.mp found
    cases found
    exact h.paren _ _ _ _ (ofInner type typeFound)
  case case6 =>
    intro star operand ofOperand t found
    rw [Expr.toType?] at found
    obtain ⟨type, typeFound, found⟩ := Option.bind_eq_some_iff.mp found
    cases found
    exact h.pointer _ _ _ (ofOperand type typeFound)
  case case7 =>
    intro e _ _ _ _ _ _ t found
    rw [Expr.toType?] at found
    · cases found
    all_goals assumption
  case case8 =>
    rintro _ ⟨⟩
    exact h.nil
  case case9 =>
    intro e es ofExpr ofRest ts found
    rw [Expr.toTypes?] at found
    obtain ⟨type, typeFound, found⟩ := Option.bind_eq_some_iff.mp found
    obtain ⟨types, typesFound, found⟩ := Option.bind_eq_some_iff.mp found
    cases found
    exact h.cons _ _ _ _ (ofExpr type typeFound) (ofRest types typesFound)

end GoLayout
