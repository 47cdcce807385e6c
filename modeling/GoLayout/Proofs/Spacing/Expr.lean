import GoLayout.Proofs.Grammar.Basic
import GoLayout.Proofs.Spacing.Type

/-!
The rules for expressions read moved tokens as moved expressions. What an expression is taken for,
a type or the type of a literal, does not depend on where its tokens are.
-/

namespace GoLayout

variable {m : Moving}

theorem TypeExpr.baseName?_move (t : TypeExpr) :
    (t.move m).baseName? = t.baseName?.map (Prod.map (Option.map m.qualifier) m.ident) := by
  cases t <;> rfl

mutual

theorem Expr.toType?_move : ∀ e : Expr, (e.move m).toType? = e.toType?.map (TypeExpr.move m)
  | .type _ => rfl
  | .ident _ => rfl
  | .selector operand _ _ => by cases operand <;> rfl
  | .index operand _ indices _ => by
    rw [Expr.move, Expr.toType?, Expr.toType?, operand.toType?_move, Expr.toTypes?_move indices]
    cases operand.toType? with
    | none => rfl
    | some t =>
      simp only [Option.map_some, Option.bind_eq_bind, Option.bind_some, t.baseName?_move]
      cases t.baseName? with
      | none => rfl
      | some base =>
        cases Expr.toTypes? indices with
        | none => rfl
        | some args =>
          simp [Prod.map, TypeExpr.move, TypeExpr.moveAll_eq]
  | .paren _ inner _ => by
    rw [Expr.move, Expr.toType?, Expr.toType?, inner.toType?_move]
    cases inner.toType? <;> rfl
  | .unary op _ operand => by
    cases op with
    | deref =>
      rw [Expr.move, Expr.toType?, Expr.toType?, operand.toType?_move]
      cases operand.toType? <;> rfl
    | _ => rfl
  | .literal _ => rfl
  | .func _ _ _ => rfl
  | .composite _ _ _ _ => rfl
  | .slice _ _ _ _ _ _ _ => rfl
  | .assertion _ _ _ _ _ => rfl
  | .call _ _ _ _ _ => rfl
  | .binary _ _ _ _ => rfl
  | .keyValue _ _ _ => rfl

theorem Expr.toTypes?_move : ∀ es : List Expr,
    Expr.toTypes? (Expr.moveAll m es) = (Expr.toTypes? es).map (List.map (TypeExpr.move m))
  | [] => rfl
  | e :: es => by
    rw [Expr.moveAll, Expr.toTypes?, Expr.toTypes?, e.toType?_move, Expr.toTypes?_move es]
    cases e.toType? with
    | none => rfl
    | some t => cases Expr.toTypes? es <;> rfl

end

theorem Expr.namesLiteral_move (level : Grammar.Level) : ∀ e : Expr,
    (e.move m).namesLiteral level = e.namesLiteral level
  | .paren _ inner _ => inner.namesLiteral_move level
  | .type t => by cases t <;> rfl
  | .ident _ => rfl
  | .literal _ => rfl
  | .func _ _ _ => rfl
  | .composite _ _ _ _ => rfl
  | .selector _ _ _ => rfl
  | .index _ _ _ _ => rfl
  | .slice _ _ _ _ _ _ _ => rfl
  | .assertion _ _ _ _ _ => rfl
  | .call _ _ _ _ _ => rfl
  | .unary _ _ _ => rfl
  | .binary _ _ _ _ => rfl
  | .keyValue _ _ _ => rfl

namespace Grammar

variable {K : TokenKind → Prop} {g : Readers} (moved : g.Moved m)

include moved

/-! ### Operands -/

theorem funcOperand_moves (solid : ∀ k, K k → k.isSolid) :
    Moves m K (funcOperand g) (funcOperand g) (Expr.move m) := by
  refine .bind (.step solid) fun funcPos => .bind (signature_moves moved) fun sig => ?_
  apply Moves.looksAt_bind
  intro b
  split
  · exact .bind (.enclosed moved.body) fun body => .pure rfl
  · exact .pure rfl

theorem operand_moves : Moves m K (operand g) (operand g) (Expr.move m) := by
  apply Moves.peek_bind
  intro k _
  split
  · exact .bind .ident fun name => .pure rfl
  · exact .bind (.stepAt rfl) fun s => .pure rfl
  · refine .bind (.stepAt rfl) fun lparen => .bind moved.expr.enclosed fun inner => ?_
    exact .bind (.expectMark (by decide)) fun rparen => .pure rfl
  · exact funcOperand_moves moved (isSolid_of_eq rfl)
  · exact .bind moved.type fun t => .pure rfl
  · exact .bind moved.type fun t => .pure rfl
  · exact .bind moved.type fun t => .pure rfl
  · exact .bind moved.type fun t => .pure rfl
  · exact .bind moved.type fun t => .pure rfl
  · exact .unexpected

/-! ### Suffixes -/

theorem dotSuffix_moves (x : Expr) :
    Moves m K (dotSuffix g x) (dotSuffix g (x.move m)) (Expr.move m) := by
  refine .bind (.expectMark (by decide)) fun dot => .peek_bind fun k _ => ?_
  split
  · exact .bind .ident fun name => .pure rfl
  · refine .bind (.stepAt rfl) fun lparen => .bind (.accept rfl) fun o => ?_
    extract_lets finish finish'
    have finish_moves : ∀ type : Option TypeExpr,
        Moves m anyKind (finish type) (finish' (TypeExpr.moveOpt m type)) (Expr.move m) :=
      fun type => .bind (.expectMark (by decide)) fun rparen => .pure rfl
    clear_value finish finish'
    cases o with
    | some _ => exact .bind (.pure rfl) finish_moves
    | none => exact .bind (.map moved.type fun _ => rfl) finish_moves
  · exact .unexpected

theorem nextIndex?_moves :
    Moves m K (nextIndex? g) (nextIndex? g) (Option.map (Expr.move m)) := by
  refine .bind (.acceptMark (by decide)) fun o => ?_
  cases o with
  | none => exact .pure rfl
  | some _ =>
    apply Moves.looksAt_bind
    intro b
    split
    · exact .pure rfl
    · exact .bind moved.expr fun e => .pure rfl

theorem sliceBound_moves : Moves m K (sliceBound g) (sliceBound g) (Expr.moveOpt m) := by
  apply Moves.peek_bind
  intro k _
  split
  · exact .pure rfl
  · exact .pure rfl
  · exact .bind moved.expr fun e => .pure rfl

theorem sliceBounds_moves : Moves m K (sliceBounds g) (sliceBounds g)
    (Prod.map (Expr.moveOpt m) (Prod.map (Expr.moveOpt m) id)) := by
  refine .bind (.acceptMark (by decide)) fun o => ?_
  cases o with
  | none => exact .pure rfl
  | some _ =>
    refine .bind (sliceBound_moves moved) fun hi => ?_
    refine .bind (.acceptMark (by decide)) fun o => ?_
    cases o with
    | none => exact .pure rfl
    | some _ => exact .bind (sliceBound_moves moved) fun max => .pure rfl

theorem bracketSuffix_moves (x : Expr) :
    Moves m K (bracketSuffix g x) (bracketSuffix g (x.move m)) (Expr.move m) := by
  refine .bind (.expectMark (by decide)) fun lbrack => .enclosed ?_
  apply Moves.looksAt_bind
  intro b
  extract_lets withFirst withFirst'
  have withFirst_moves : ∀ first : Option Expr,
      Moves m anyKind (withFirst first) (withFirst' (Expr.moveOpt m first)) (Expr.move m) := by
    intro first
    apply Moves.peek_bind
    intro k _
    cases first with
    | none =>
      refine .bind (sliceBounds_moves moved) fun bounds => ?_
      exact .bind (.expectMark (by decide)) fun rbrack => .pure rfl
    | some first =>
      dsimp only [Expr.moveOpt]
      split
      · refine .bind (.many (nextIndex?_moves moved) _) fun more => ?_
        refine .bind (.expectMark (by decide)) fun rbrack => .pure ?_
        rw [Expr.move, Expr.moveAll, Expr.moveAll_eq]
      · refine .bind (sliceBounds_moves moved) fun bounds => ?_
        exact .bind (.expectMark (by decide)) fun rbrack => .pure rfl
  clear_value withFirst withFirst'
  split
  · exact .bind (.pure rfl) withFirst_moves
  · exact .bind (.map moved.expr fun _ => rfl) withFirst_moves

theorem argument_moves :
    Moves m K (argument g) (argument g) (Prod.map (Expr.move m) (Option.map m.span)) :=
  .bind moved.expr fun _ => .bind (.acceptMark (by decide)) fun _ => .pure rfl

theorem callSuffix_moves (x : Expr) :
    Moves m K (callSuffix g x) (callSuffix g (x.move m)) (Expr.move m) := by
  refine .bind (.expectMark (by decide)) fun lparen => ?_
  refine .bind (.enclosed (.commaList (argument_moves moved) _)) fun args => ?_
  refine .bind (.expectMark (by decide)) fun rparen => .pure ?_
  have spreads : (args.map (Prod.map (Expr.move m) (Option.map m.span))).filterMap (·.2) =
      (args.filterMap (·.2)).map m.span := by
    rw [List.filterMap_map, List.map_filterMap]
    rfl
  rw [Expr.move, Expr.moveAll_eq, spreads, List.getLast?_map, List.map_map, List.map_map]
  rfl

theorem suffix?_moves (x : Expr) :
    Moves m K (suffix? g x) (suffix? g (x.move m)) (Option.map (Expr.move m)) := by
  apply Moves.peek_bind
  intro k _
  split
  · exact .bind (dotSuffix_moves moved x) fun e => .pure rfl
  · exact .bind (bracketSuffix_moves moved x) fun e => .pure rfl
  · exact .bind (callSuffix_moves moved x) fun e => .pure rfl
  · apply Moves.level_bind
    intro level
    rw [x.namesLiteral_move, x.toType?_move]
    split
    · cases x.toType? with
      | none => exact .pure rfl
      | some type =>
        refine .bind (moved .elements) fun elements => .pure ?_
        rw [Option.map_some, Expr.move, Expr.moveAll_eq]
        rfl
    · exact .pure rfl
  · exact .pure rfl

theorem suffixes_moves (x : Expr) :
    Moves m K (suffixes g x) (suffixes g (x.move m)) (Expr.move m) :=
  .grow (suffix?_moves moved) _ x

/-! ### Operators and literals -/

theorem unaryRule_moves : Moves m K (unaryRule g) (unaryRule g) (Expr.move m) := by
  refine .peek_bind fun k _ => .peekNext_bind fun k' => ?_
  split
  · exact .bind moved.type fun t => suffixes_moves moved (.type t)
  · rename_i mark _ _
    split
    · rename_i op isOp
      refine .bind (.stepAt (UnaryOp.isSolid_of_ofMark? isOp)) fun opPos => ?_
      exact .bind (moved .unary) fun e => .pure rfl
    · exact .bind (operand_moves moved) fun e => suffixes_moves moved e
  · exact .bind (operand_moves moved) fun e => suffixes_moves moved e

theorem nextOperand?_moves {min : Nat} (left : Expr) :
    Moves m K (nextOperand? g min left) (nextOperand? g min (left.move m))
      (Option.map (Expr.move m)) := by
  apply Moves.peek_bind
  intro k _
  split
  · rename_i mark _
    split
    · rename_i op isOp
      split
      · exact .pure rfl
      · refine .bind (.stepAt (BinaryOp.isSolid_of_ofMark? isOp)) fun opPos => ?_
        exact .bind (moved (.binary _)) fun right => .pure rfl
    · exact .pure rfl
  · exact .pure rfl

theorem binaryRule_moves {min : Nat} :
    Moves m K (binaryRule g min) (binaryRule g min) (Expr.move m) :=
  .bind (moved .unary) fun e => .grow (nextOperand?_moves moved) _ e

theorem elementValue_moves : Moves m K (elementValue g) (elementValue g) (Expr.move m) := by
  apply Moves.looksAt_bind
  intro b
  split
  · refine .bind (moved .elements) fun elements => .pure ?_
    rw [Expr.move, Expr.moveAll_eq]
    rfl
  · exact moved.expr

theorem element_moves : Moves m K (element g) (element g) (Expr.move m) := by
  refine .bind (elementValue_moves moved) fun key => ?_
  refine .bind (.acceptMark (by decide)) fun o => ?_
  cases o with
  | none => exact .pure rfl
  | some s => exact .bind (elementValue_moves moved) fun value => .pure rfl

theorem elementsRule_moves : Moves m K (elementsRule g) (elementsRule g) (Elements.move m) := by
  refine .bind (.expectMark (by decide)) fun lbrace => ?_
  refine .bind (.enclosed (.commaList (element_moves moved) _)) fun list => ?_
  exact .bind (.expectMark (by decide)) fun rbrace => .pure rfl

end Grammar

end GoLayout
