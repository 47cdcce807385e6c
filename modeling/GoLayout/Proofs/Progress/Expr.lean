import GoLayout.Grammar.Expr
import GoLayout.Proofs.Progress.Type

/-!
The rules for expressions. An expression is read through its first operand, and this one perhaps
through its type, without a step; everything else in it stands behind a token. Each suffix, each
operator with its right operand and each argument or element passes a token.
-/

namespace GoLayout.Grammar

variable {n r : Nat} {K : TokenKind → Prop} {g : Readers}

/-! ### Operands -/

theorem funcOperand_finishes (able : g.Able n r) :
    Finishes n (· = .keyword .kwFunc) (funcOperand g) fun _ => 1 := by
  refine .bindMoving (.stepAt nofun) fun _ m fewer => ?_
  have behind := able.next fewer
  refine .bind (signature_finishes behind) fun _ => .looksAt_bind fun b => ?_
  split
  · exact .bind (.enclosed (body_finishes behind)) fun _ => .pure rfl
  · exact .pure rfl

theorem operand_finishes (able : g.Able n r) (rank : 0 < r) :
    Finishes n K (operand g) fun _ => 1 := by
  refine .peek_bind fun k _ => ?_
  split
  · exact .bindMoving .ident fun _ _ _ => .pure rfl
  · exact .bindMoving (.stepAt nofun) fun _ _ _ => .pure rfl
  · exact .bindMoving (.stepAt nofun) fun _ m fewer =>
      .bind (.enclosed (able.next fewer).expr) fun _ => .bind .expectMark fun _ => .pure rfl
  · exact funcOperand_finishes able
  · exact .bindMoving (able.read .type rank).ofAny fun _ _ _ => .pure rfl
  · exact .bindMoving (able.read .type rank).ofAny fun _ _ _ => .pure rfl
  · exact .bindMoving (able.read .type rank).ofAny fun _ _ _ => .pure rfl
  · exact .bindMoving (able.read .type rank).ofAny fun _ _ _ => .pure rfl
  · exact .bindMoving (able.read .type rank).ofAny fun _ _ _ => .pure rfl
  · exact .unexpected

/-! ### Suffixes -/

section Behind

variable (able : g.Able n 4)

include able

theorem dotSuffix_finishes {x : Expr} : Finishes n K (dotSuffix g x) fun _ => 1 := by
  refine .bindMoving .expectMark fun dot m fewer => .peek_bind fun k _ => ?_
  split
  · exact .bind .ident fun _ => .pure rfl
  · refine .bind (.stepAt nofun) fun lparen => .bind (.accept nofun) fun o => ?_
    extract_lets finish
    have finish_finishes : ∀ type, Finishes m anyKind (finish type) fun _ => 0 := fun type =>
      .bind .expectMark fun _ => .pure rfl
    cases o with
    | some _ => exact .bind .idle finish_finishes
    | none => exact .bind (.map (able.next fewer).type) finish_finishes
  · exact .unexpected

/-- A round over indices. -/
theorem nextIndex?_finishes : Finishes n K (nextIndex? g) ifSome := by
  refine .bindOption .acceptMark (.pure rfl) fun _ m fewer => .looksAt_bind fun b => ?_
  split
  · exact .pure rfl
  · exact .bind (able.next fewer).expr fun _ => .pure rfl

theorem sliceBound_finishes : Finishes n K (sliceBound g) fun _ => 0 := by
  refine .peek_bind fun k _ => ?_
  split
  · exact .pure rfl
  · exact .pure rfl
  · exact .bind able.expr fun _ => .pure rfl

theorem sliceBounds_finishes : Finishes n K (sliceBounds g) fun _ => 0 := by
  refine .bind .acceptMark fun o => ?_
  cases o with
  | none => exact .pure rfl
  | some _ =>
    refine .bind (sliceBound_finishes able) fun hi => .bind .acceptMark fun o => ?_
    cases o with
    | none => exact .pure rfl
    | some _ => exact .bind (sliceBound_finishes able) fun _ => .pure rfl

theorem bracketSuffix_finishes {x : Expr} : Finishes n K (bracketSuffix g x) fun _ => 1 := by
  refine .bindMoving .expectMark fun lbrack m fewer => .enclosed (.looksAt_bind fun b => ?_)
  have behind := able.next fewer
  extract_lets withFirst
  have slice_finishes : ∀ {K} (first : Option Expr),
      Finishes m K
        (do
          let bounds ← sliceBounds g
          return Expr.slice x lbrack first bounds.1 bounds.2.1 bounds.2.2 (← expectMark .rbrack))
        fun _ => 0 :=
    fun first => .bind (sliceBounds_finishes behind) fun _ => .bind .expectMark fun _ => .pure rfl
  have withFirst_finishes : ∀ first, Finishes m anyKind (withFirst first) fun _ => 0 := by
    intro first
    refine .peek_bind fun k _ => ?_
    cases first with
    | none => exact slice_finishes none
    | some first =>
      dsimp only
      split
      · refine .bind (.many (nextIndex?_finishes behind) behind.rounds) fun _ => ?_
        exact .bind .expectMark fun _ => .pure rfl
      · exact slice_finishes (some first)
  split
  · exact .bind .idle withFirst_finishes
  · exact .bind (.map behind.expr) withFirst_finishes

/-- A round over arguments. -/
theorem argument_finishes : Finishes n K (argument g) fun _ => 1 :=
  .bindMoving able.expr fun _ _ _ => .bind .acceptMark fun _ => .pure rfl

theorem callSuffix_finishes {x : Expr} : Finishes n K (callSuffix g x) fun _ => 1 := by
  refine .bindMoving .expectMark fun lparen m fewer => ?_
  have behind := able.next fewer
  refine .bind (.enclosed (.commaList (argument_finishes behind) behind.rounds)) fun _ => ?_
  exact .bind .expectMark fun _ => .pure rfl

/-- A round over suffixes. -/
theorem suffix?_finishes (x : Expr) : Finishes n K (suffix? g x) ifSome := by
  refine .peek_bind fun k _ => ?_
  split
  · exact .bindMoving (dotSuffix_finishes able) fun _ _ _ => .pure rfl
  · exact .bindMoving (bracketSuffix_finishes able) fun _ _ _ => .pure rfl
  · exact .bindMoving (callSuffix_finishes able) fun _ _ _ => .pure rfl
  · refine .level_bind fun level => ?_
    split
    · split
      · exact .bindMoving (able.read .elements (by decide)).ofAny fun _ _ _ => .pure rfl
      · exact .pure rfl
    · exact .pure rfl
  · exact .pure rfl

theorem suffixes_finishes {x : Expr} : Finishes n K (suffixes g x) fun _ => 0 :=
  .grow (suffix?_finishes able) able.rounds x

/-! ### Operators and literals -/

/-- A round over operators. -/
theorem nextOperand?_finishes {min : Nat} (left : Expr) :
    Finishes n K (nextOperand? g min left) ifSome := by
  refine .peek_bind fun k _ => ?_
  split
  · split
    · split
      · exact .pure rfl
      · exact .bindMoving (.stepAt nofun) fun _ m fewer =>
          .bind ((able.next fewer).read (.binary _) (by simp [Phrase.rank])) fun _ => .pure rfl
    · exact .pure rfl
  · exact .pure rfl

theorem elementValue_finishes : Finishes n K (elementValue g) fun _ => 1 := by
  refine .looksAt_bind fun b => ?_
  split
  · exact .bindMoving (able.read .elements (by decide)).ofAny fun _ _ _ => .pure rfl
  · exact able.expr

/-- A round over elements. -/
theorem element_finishes : Finishes n K (element g) fun _ => 1 := by
  refine .bindMoving (elementValue_finishes able) fun key m fewer => .bind .acceptMark fun o => ?_
  cases o with
  | none => exact .pure rfl
  | some _ => exact .bind (elementValue_finishes (able.next fewer)) fun _ => .pure rfl

end Behind

theorem unaryRule_finishes (able : g.Able n r) (rank : 0 < r) :
    Finishes n K (unaryRule g) fun _ => 1 := by
  have withSuffixes : ∀ {K}, Finishes n K (do suffixes g (← operand g)) fun _ => 1 :=
    .bindMoving (operand_finishes able rank) fun _ _ fewer => suffixes_finishes (able.next fewer)
  refine .peek_bind fun k _ => .peekNext_bind fun k' => ?_
  split
  · exact .bindMoving (able.read .type rank).ofAny fun _ _ fewer =>
      suffixes_finishes (able.next fewer)
  · split
    · exact .bindMoving (.stepAt nofun) fun _ _ fewer =>
        .bind ((able.next fewer).read .unary (by decide)) fun _ => .pure rfl
    · exact withSuffixes
  · exact withSuffixes

theorem binaryRule_finishes {min : Nat} (able : g.Able n r) (rank : 1 < r) :
    Finishes n K (binaryRule g min) fun _ => 1 := by
  refine .bindMoving (able.read .unary rank).ofAny fun left m fewer => ?_
  have behind := able.next fewer
  exact .grow (nextOperand?_finishes behind) behind.rounds left

theorem elementsRule_finishes (able : g.Able n r) :
    Finishes n K (elementsRule g) fun _ => 1 := by
  refine .bindMoving .expectMark fun lbrace m fewer => ?_
  have behind := able.next fewer
  refine .bind (.enclosed (.commaList (element_finishes behind) behind.rounds)) fun _ => ?_
  exact .bind .expectMark fun _ => .pure rfl

end GoLayout.Grammar
