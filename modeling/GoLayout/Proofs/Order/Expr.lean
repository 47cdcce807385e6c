import GoLayout.Proofs.Grammar.Basic
import GoLayout.Proofs.Order.Type

/-!
The rules for expressions read landmarks in their order. An expression that is taken as the type of
a literal may lose some landmarks, and keeps the order of the others.
-/

namespace GoLayout

theorem TypeExpr.baseName?_landmarks {t : TypeExpr} :
    ∀ b ∈ t.baseName?, (Qualifier.landmarks b.1 b.2).Sublist t.landmarks := by
  intro b found
  cases t <;> cases found
  · exact List.Sublist.refl _
  · exact List.sublist_append_left _ _

theorem Expr.asType_landmarks :
    Expr.AsType (fun e t => t.landmarks.Sublist e.landmarks)
      fun es ts => (TypeExpr.landmarksAll ts).Sublist (Expr.landmarksAll es) where
  type := fun _ => List.Sublist.refl _
  name := fun _ => List.Sublist.refl _
  member := fun _ _ _ => List.Sublist.refl _
  generic := by
    intro operand base qualifier name lbrack indices args rbrack ofOperand named ofIndices
    have ofName := (TypeExpr.baseName?_landmarks _ named).trans ofOperand
    exact ofName.append (.cons_cons _ (ofIndices.append (List.Sublist.refl _)))
  paren := fun _ _ _ _ ofInner => .cons_cons _ (ofInner.append (List.Sublist.refl _))
  pointer := fun _ _ _ ofOperand => .cons_cons _ ofOperand
  nil := List.Sublist.refl _
  cons := fun _ _ _ _ ofExpr ofRest => ofExpr.append ofRest

namespace Grammar

variable {P : Span → Prop} {ls : List Landmark} {K : TokenKind → Prop} {g : Readers}

section Rules

variable (marks : g.Marks P)

include marks

/-! ### Operands -/

theorem funcOperand_passes : Passes P (Passed P ls) (· = .keyword .kwFunc) (funcOperand g) fun e =>
    Passed P (ls ++ e.landmarks) := by
  refine .bind (.stepAt rfl) fun funcPos => .bind (signature_passes marks) fun sig => ?_
  refine .looksAt_bind fun b => ?_
  split
  · exact .bind (.enclosed marks.body) fun body => .done (by simp [Expr.landmarks])
  · exact .done (by simp [Expr.landmarks, TypeExpr.landmarks])

theorem operand_passes : Passes P (Passed P ls) K (operand g) fun e => Passed P (ls ++ e.landmarks) := by
  refine .peek_bind fun k _ => ?_
  split
  · exact .bind .ident fun name => .done rfl
  · exact .bind (.stepAt rfl) fun span => .done rfl
  · refine .bind (.stepAt rfl) fun _ => .bind marks.expr.enclosed fun inner => ?_
    exact .bind (.expectMark nofun) fun _ => .done (by simp [Expr.landmarks])
  · exact funcOperand_passes marks
  · exact .bind marks.type fun t => .done rfl
  · exact .bind marks.type fun t => .done rfl
  · exact .bind marks.type fun t => .done rfl
  · exact .bind marks.type fun t => .done rfl
  · exact .bind marks.type fun t => .done rfl
  · exact .unexpected

/-! ### Suffixes -/

theorem dotSuffix_passes {x : Expr} : Passes P (Passed P (ls ++ x.landmarks)) K (dotSuffix g x) fun e =>
    Passed P (ls ++ e.landmarks) := by
  refine .bind (.expectMark nofun) fun dot => .peek_bind fun k _ => ?_
  split
  · exact .bind .ident fun name => .done (by simp [Expr.landmarks])
  · refine .bind (.stepAt rfl) fun lparen => .bind (.acceptAny nofun) fun o => ?_
    extract_lets finish
    have finish_passes : ∀ type : Option TypeExpr,
        Passes P (Passed P (ls ++ x.landmarks ++ [.token dot] ++ [.token lparen] ++
          TypeExpr.landmarksOpt type)) anyKind (finish type) fun e =>
          Passed P (ls ++ e.landmarks) := fun type =>
      .bind (.expectMark nofun) fun rparen => .done (by simp [Expr.landmarks])
    cases o with
    | some _ => exact .bind (.done (by simp [TypeExpr.landmarksOpt])) finish_passes
    | none => exact .bind (.map marks.type) finish_passes
  · exact .unexpected

theorem nextIndex?_passes : Passes P (Passed P ls) K (nextIndex? g) fun o =>
    Passed P (ls ++ o.toList.flatMap Expr.landmarks) := by
  refine .bind .skipMark fun o => ?_
  cases o with
  | none => exact .done (by simp)
  | some _ =>
    refine .looksAt_bind fun b => ?_
    split
    · exact .done (by simp)
    · exact .bind marks.expr fun e => .done (by simp)

theorem sliceBound_passes : Passes P (Passed P ls) K (sliceBound g) fun o =>
    Passed P (ls ++ Expr.landmarksOpt o) := by
  refine .peek_bind fun k _ => ?_
  split
  · exact .done (by simp [Expr.landmarksOpt])
  · exact .done (by simp [Expr.landmarksOpt])
  · exact .bind marks.expr fun e => .done rfl

theorem sliceBounds_passes : Passes P (Passed P ls) K (sliceBounds g) fun b =>
    Passed P (ls ++ Expr.landmarksOpt b.1 ++ Expr.landmarksOpt b.2.1) := by
  refine .bind .skipMark fun o => ?_
  cases o with
  | none => exact .done (by simp [Expr.landmarksOpt])
  | some _ =>
    refine .bind (sliceBound_passes marks) fun hi => .bind .skipMark fun o => ?_
    cases o with
    | none => exact .done (by simp [Expr.landmarksOpt])
    | some _ => exact .bind (sliceBound_passes marks) fun max => .done rfl

theorem bracketSuffix_passes {x : Expr} : Passes P (Passed P (ls ++ x.landmarks)) K
    (bracketSuffix g x) fun e => Passed P (ls ++ e.landmarks) := by
  refine .bind (.expectMark nofun) fun lbrack => .enclosed (.looksAt_bind fun b => ?_)
  extract_lets withFirst
  have slice_passes : ∀ {K} (first : Option Expr),
      Passes P (Passed P (ls ++ x.landmarks ++ [.token lbrack] ++ Expr.landmarksOpt first)) K
        (do
          let bounds ← sliceBounds g
          return Expr.slice x lbrack first bounds.1 bounds.2.1 bounds.2.2 (← expectMark .rbrack))
        fun e => Passed P (ls ++ e.landmarks) := by
    intro K first
    refine .bind (sliceBounds_passes marks) fun bounds => .bind (.expectMark nofun) fun rbrack => ?_
    exact .done (by simp [Expr.landmarks])
  have withFirst_passes : ∀ first : Option Expr,
      Passes P (Passed P (ls ++ x.landmarks ++ [.token lbrack] ++ Expr.landmarksOpt first)) anyKind
        (withFirst first) fun e => Passed P (ls ++ e.landmarks) := by
    intro first
    refine .peek_bind fun k _ => ?_
    cases first with
    | none => exact slice_passes none
    | some first =>
      dsimp only
      split
      · refine .bind (.many (nextIndex?_passes marks) _) fun more => ?_
        refine .bind (.expectMark nofun) fun rbrack => .done ?_
        simp [Expr.landmarks, Expr.landmarksOpt, Expr.landmarksAll, Expr.landmarksAll_eq_flatMap]
      · exact slice_passes (some first)
  split
  · exact .bind (.done (by simp [Expr.landmarksOpt])) withFirst_passes
  · exact .bind (.map marks.expr) withFirst_passes

theorem callSuffix_passes {x : Expr} : Passes P (Passed P (ls ++ x.landmarks)) K (callSuffix g x)
    fun e => Passed P (ls ++ e.landmarks) := by
  have argument_passes {ls K} : Passes P (Passed P ls) K (argument g) fun a =>
      Passed P (ls ++ a.1.landmarks) :=
    .bind marks.expr fun arg => .bind .skipMark fun _ => .done rfl
  refine .bind (.expectMark nofun) fun lparen => ?_
  refine .bind (.enclosed (.commaList argument_passes _)) fun args => ?_
  refine .bind (.expectMark nofun) fun rparen => .done ?_
  simp [Expr.landmarks, Expr.landmarksAll_eq_flatMap, List.flatMap_map]

theorem suffix?_passes (x : Expr) : Passes P (Passed P (ls ++ x.landmarks)) K (suffix? g x) fun o =>
    Passed P (ls ++ (o.getD x).landmarks) := by
  refine .peek_bind fun k _ => ?_
  split
  · exact .bind (dotSuffix_passes marks) fun e => .done rfl
  · exact .bind (bracketSuffix_passes marks) fun e => .done rfl
  · exact .bind (callSuffix_passes marks) fun e => .done rfl
  · refine .level_bind fun level => ?_
    split
    · split
      · rename_i type taken
        have fewer := (List.Sublist.refl ls).append (Expr.asType_landmarks.all.1 x type taken)
        refine .bind (marks.elements.behind fun _ passed => passed.cut fewer) fun e => .done ?_
        simp [Expr.landmarks, TypeExpr.landmarksOpt]
      · exact .done rfl
    · exact .done rfl
  · exact .done rfl

theorem suffixes_passes {x : Expr} : Passes P (Passed P (ls ++ x.landmarks)) K (suffixes g x) fun e =>
    Passed P (ls ++ e.landmarks) :=
  .grow (A := fun e => Passed P (ls ++ e.landmarks)) (suffix?_passes marks) _ x

/-! ### Operators and literals -/

theorem unaryRule_passes : Passes P (Passed P ls) K (unaryRule g) fun e =>
    Passed P (ls ++ e.landmarks) := by
  refine .peek_bind fun k _ => .peekNext_bind fun k' => ?_
  split
  · exact .bind marks.type fun t => suffixes_passes marks (x := .type t)
  · rename_i m _ _
    split
    · rename_i op isOp
      refine .bind (.stepAt (UnaryOp.isSolid_of_ofMark? isOp)) fun opPos => ?_
      exact .bind marks.unary fun e => .done (by simp [Expr.landmarks])
    · exact .bind (operand_passes marks) fun e => suffixes_passes marks
  · exact .bind (operand_passes marks) fun e => suffixes_passes marks

theorem nextOperand?_passes {min : Nat} (left : Expr) :
    Passes P (Passed P (ls ++ left.landmarks)) K (nextOperand? g min left) fun o =>
      Passed P (ls ++ (o.getD left).landmarks) := by
  refine .peek_bind fun k _ => ?_
  split
  · rename_i m _
    split
    · rename_i op isOp
      split
      · exact .done rfl
      · refine .bind (.stepAt (BinaryOp.isSolid_of_ofMark? isOp)) fun opPos => ?_
        exact .bind (marks.binary _) fun right => .done (by simp [Expr.landmarks])
    · exact .done rfl
  · exact .done rfl

theorem binaryRule_passes {min : Nat} :
    Passes P (Passed P ls) K (binaryRule g min) fun e => Passed P (ls ++ e.landmarks) :=
  .bind marks.unary fun e =>
    .grow (A := fun e => Passed P (ls ++ e.landmarks)) (nextOperand?_passes marks) _ e

theorem elementValue_passes : Passes P (Passed P ls) K (elementValue g) fun e =>
    Passed P (ls ++ e.landmarks) := by
  refine .looksAt_bind fun b => ?_
  split
  · exact .bind marks.elements fun e => .done (by simp [Expr.landmarks, TypeExpr.landmarksOpt])
  · exact marks.expr

theorem element_passes : Passes P (Passed P ls) K (element g) fun e => Passed P (ls ++ e.landmarks) := by
  refine .bind (elementValue_passes marks) fun key => .bind (.acceptMark nofun) fun o => ?_
  cases o with
  | none => exact .done (by simp)
  | some _ => exact .bind (elementValue_passes marks) fun value => .done (by simp [Expr.landmarks])

theorem elementsRule_passes : Passes P (Passed P ls) K (elementsRule g) fun e =>
    Passed P (ls ++ .token e.lbrace :: (Expr.landmarksAll e.list ++ [.token e.rbrace])) := by
  refine .bind (.expectMark nofun) fun lbrace => ?_
  refine .bind (.enclosed (.commaList (element_passes marks) _)) fun list => ?_
  exact .bind (.expectMark nofun) fun rbrace => .done (by simp [Expr.landmarksAll_eq_flatMap])

end Rules

end Grammar

end GoLayout
