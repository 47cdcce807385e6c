import GoLayout.Proofs.Grammar.Basic
import GoLayout.Proofs.Grammar.Type

/-!
The rules for expressions put the tokens they read into the tree, and no others. An expression
taken as a type keeps its tokens.
-/

namespace GoLayout

variable {P : Span → Prop}

theorem TypeExpr.baseName?_everywhere {t : TypeExpr} (h : t.Everywhere P) :
    ∀ b ∈ t.baseName?, (∀ q ∈ b.1, q.Everywhere P) ∧ P b.2.span := by
  intro b found
  cases t <;> cases found
  · exact h
  · exact ⟨h.1, h.2.1⟩

theorem Expr.asType_everywhere :
    Expr.AsType (fun e t => e.Everywhere P → t.Everywhere P)
      fun es ts => Expr.EverywhereAll P es → TypeExpr.EverywhereAll P ts where
  type := fun _ h => h
  name := fun _ h => ⟨by simp, h⟩
  member := by
    rintro package dot member h
    refine ⟨?_, h.2.2⟩
    rintro _ ⟨⟩
    exact ⟨h.1, h.2.1⟩
  generic := by
    intro operand base qualifier name lbrack indices args rbrack ofOperand named ofIndices h
    obtain ⟨ofQualifier, ofName⟩ := TypeExpr.baseName?_everywhere (ofOperand h.1) _ named
    exact ⟨ofQualifier, ofName, h.2.1, ofIndices h.2.2.1, h.2.2.2⟩
  paren := fun _ _ _ _ ofInner h => ⟨h.1, ofInner h.2.1, h.2.2⟩
  pointer := fun _ _ _ ofOperand h => ⟨h.1, ofOperand h.2⟩
  nil := fun _ => trivial
  cons := fun _ _ _ _ ofExpr ofRest h => ⟨ofExpr h.1, ofRest h.2⟩

namespace Grammar

variable {K : TokenKind → Prop} {g : Readers} (sound : g.Sound P)

include sound

/-! ### Operands -/

theorem funcOperand_meets (solid : ∀ k, K k → k.isSolid) :
    Meets P K (funcOperand g) (Expr.Everywhere P) := by
  refine .bind (.step solid) fun funcPos here => ?_
  refine .bind (signature_meets sound) fun sig ofSig => ?_
  refine .looksAt_bind fun b => ?_
  split
  · exact .bind (.enclosed sound.body) fun body ofBody => .pure ⟨here, ofSig, ofBody⟩
  · refine .pure ⟨?_, ofSig⟩
    rintro _ ⟨⟩
    exact here

theorem operand_meets : Meets P K (operand g) (Expr.Everywhere P) := by
  refine .peek_bind fun k _ => ?_
  split
  · exact .bind .ident fun name ofName => .pure ofName
  · exact .bind (.stepAt rfl) fun s here => .pure here
  · refine .bind (.stepAt rfl) fun lparen left => ?_
    refine .bind sound.expr.enclosed fun inner ofInner => ?_
    exact .bind (.expectMark (by decide)) fun rparen right => .pure ⟨left, ofInner, right⟩
  · exact funcOperand_meets sound (isSolid_of_eq rfl)
  · exact .bind sound.type fun t ofType => .pure ofType
  · exact .bind sound.type fun t ofType => .pure ofType
  · exact .bind sound.type fun t ofType => .pure ofType
  · exact .bind sound.type fun t ofType => .pure ofType
  · exact .bind sound.type fun t ofType => .pure ofType
  · exact .unexpected

/-! ### Suffixes -/

theorem dotSuffix_meets {x : Expr} (h : x.Everywhere P) :
    Meets P K (dotSuffix g x) (Expr.Everywhere P) := by
  refine .bind (.expectMark (by decide)) fun dot here => .peek_bind fun k _ => ?_
  split
  · exact .bind .ident fun name ofName => .pure ⟨h, here, ofName⟩
  · refine .bind (.stepAt rfl) fun lparen left => ?_
    refine .bind (.accept rfl) fun o _ => ?_
    extract_lets finish
    have finish_meets : ∀ type : Option TypeExpr, TypeExpr.EverywhereOpt P type →
        Meets P anyKind (finish type) (Expr.Everywhere P) := fun type ofType =>
      .bind (.expectMark (by decide)) fun rparen right => .pure ⟨h, here, left, ofType, right⟩
    cases o with
    | some _ => exact .bind (.pure trivial) finish_meets
    | none => exact .bind (.map sound.type) finish_meets
  · exact .unexpected

theorem nextIndex?_meets : Meets P K (nextIndex? g) fun o => ∀ e ∈ o, e.Everywhere P := by
  refine .bind (.acceptMark (by decide)) fun o _ => ?_
  cases o with
  | none => exact .pure nofun
  | some _ =>
    refine .looksAt_bind fun b => ?_
    split
    · exact .pure nofun
    · refine .bind sound.expr fun e holds => .pure ?_
      rintro _ ⟨⟩
      exact holds

theorem sliceBound_meets : Meets P K (sliceBound g) (Expr.EverywhereOpt P) := by
  refine .peek_bind fun k _ => ?_
  split
  · exact .pure trivial
  · exact .pure trivial
  · exact .bind sound.expr fun e holds => .pure holds

theorem sliceBounds_meets : Meets P K (sliceBounds g) fun b =>
    Expr.EverywhereOpt P b.1 ∧ Expr.EverywhereOpt P b.2.1 := by
  refine .bind (.acceptMark (by decide)) fun o _ => ?_
  cases o with
  | none => exact .pure ⟨trivial, trivial⟩
  | some _ =>
    refine .bind (sliceBound_meets sound) fun hi ofHi => ?_
    refine .bind (.acceptMark (by decide)) fun o _ => ?_
    cases o with
    | none => exact .pure ⟨ofHi, trivial⟩
    | some _ => exact .bind (sliceBound_meets sound) fun max ofMax => .pure ⟨ofHi, ofMax⟩

theorem bracketSuffix_meets {x : Expr} (h : x.Everywhere P) :
    Meets P K (bracketSuffix g x) (Expr.Everywhere P) := by
  refine .bind (.expectMark (by decide)) fun lbrack left => .enclosed ?_
  refine .looksAt_bind fun b => ?_
  extract_lets withFirst
  have slice_meets : ∀ {K} (first : Option Expr), Expr.EverywhereOpt P first →
      Meets P K
        (do
          let bounds ← sliceBounds g
          return .slice x lbrack first bounds.1 bounds.2.1 bounds.2.2 (← expectMark .rbrack))
        (Expr.Everywhere P) := by
    intro K first ofFirst
    refine .bind (sliceBounds_meets sound) ?_
    rintro ⟨hi, max, full⟩ ⟨ofHi, ofMax⟩
    refine .bind (.expectMark (by decide)) fun rbrack right => .pure ?_
    exact ⟨h, left, ofFirst, ofHi, ofMax, right⟩
  have withFirst_meets : ∀ first : Option Expr, Expr.EverywhereOpt P first →
      Meets P anyKind (withFirst first) (Expr.Everywhere P) := by
    intro first ofFirst
    refine .peek_bind fun k _ => ?_
    cases first with
    | none => exact slice_meets none trivial
    | some first =>
      dsimp only
      split
      · refine .bind (.many (nextIndex?_meets sound) _) fun more ofMore => ?_
        refine .bind (.expectMark (by decide)) fun rbrack right => .pure ?_
        exact ⟨h, left, ⟨ofFirst, Expr.everywhereAll_iff.mpr ofMore⟩, right⟩
      · exact slice_meets (some first) ofFirst
  split
  · exact .bind (.pure trivial) withFirst_meets
  · exact .bind (.map sound.expr) withFirst_meets

theorem argument_meets : Meets P K (argument g) fun a =>
    a.1.Everywhere P ∧ ∀ s ∈ a.2, P s :=
  .bind sound.expr fun _ ofArg => .bind (.acceptMark (by decide)) fun _ dots => .pure ⟨ofArg, dots⟩

theorem callSuffix_meets {x : Expr} (h : x.Everywhere P) :
    Meets P K (callSuffix g x) (Expr.Everywhere P) := by
  refine .bind (.expectMark (by decide)) fun lparen left => ?_
  refine .bind (.enclosed (.commaList (argument_meets sound) _)) fun args ofArgs => ?_
  refine .bind (.expectMark (by decide)) fun rparen right => .pure ⟨h, left, ?_, ?_, right⟩
  · refine Expr.everywhereAll_iff.mpr fun e mem => ?_
    obtain ⟨a, found, rfl⟩ := List.mem_map.mp mem
    exact (ofArgs a found).1
  · intro s last
    obtain ⟨a, found, spread⟩ := List.mem_filterMap.mp (List.mem_of_getLast? last)
    exact (ofArgs a found).2 s spread

theorem suffix?_meets {x : Expr} (h : x.Everywhere P) :
    Meets P K (suffix? g x) fun o => ∀ e ∈ o, e.Everywhere P := by
  have present : ∀ {e : Expr}, e.Everywhere P → ∀ e' ∈ some e, e'.Everywhere P := by
    rintro e holds _ ⟨⟩
    exact holds
  have absent : ∀ e ∈ (none : Option Expr), e.Everywhere P := by simp
  refine .peek_bind fun k _ => ?_
  split
  · exact .bind (dotSuffix_meets sound h) fun e holds => .pure (present holds)
  · exact .bind (bracketSuffix_meets sound h) fun e holds => .pure (present holds)
  · exact .bind (callSuffix_meets sound h) fun e holds => .pure (present holds)
  · refine .level_bind fun level => ?_
    split
    · split
      · rename_i type taken
        refine .bind (sound .elements) ?_
        rintro ⟨lbrace, list, rbrace⟩ ⟨left, ofList, right⟩
        refine .pure (present ⟨?_, left, ofList, right⟩)
        exact Expr.asType_everywhere.all.1 x type taken h
      · exact .pure absent
    · exact .pure absent
  · exact .pure absent

theorem suffixes_meets {x : Expr} (h : x.Everywhere P) :
    Meets P K (suffixes g x) (Expr.Everywhere P) :=
  .grow (fun _ => suffix?_meets sound) _ x h

/-! ### Operators and literals -/

theorem unaryRule_meets : Meets P K (unaryRule g) (Expr.Everywhere P) := by
  refine .peek_bind fun k _ => .peekNext_bind fun k' => ?_
  split
  · exact .bind sound.type fun t ofType => suffixes_meets sound ofType
  · rename_i m _ _
    split
    · rename_i op isOp
      refine .bind (.stepAt (UnaryOp.isSolid_of_ofMark? isOp)) fun opPos here => ?_
      exact .bind (sound .unary) fun e holds => .pure ⟨here, holds⟩
    · exact .bind (operand_meets sound) fun e holds => suffixes_meets sound holds
  · exact .bind (operand_meets sound) fun e holds => suffixes_meets sound holds

theorem nextOperand?_meets {min : Nat} {left : Expr} (h : left.Everywhere P) :
    Meets P K (nextOperand? g min left) fun o => ∀ e ∈ o, e.Everywhere P := by
  refine .peek_bind fun k _ => ?_
  split
  · rename_i m _
    split
    · rename_i op isOp
      split
      · exact .pure nofun
      · refine .bind (.stepAt (BinaryOp.isSolid_of_ofMark? isOp)) fun opPos here => ?_
        refine .bind (sound (.binary _)) fun right holds => .pure ?_
        rintro _ ⟨⟩
        exact ⟨h, here, holds⟩
    · exact .pure nofun
  · exact .pure nofun

theorem binaryRule_meets {min : Nat} : Meets P K (binaryRule g min) (Expr.Everywhere P) :=
  .bind (sound .unary) fun e holds => .grow (fun _ => nextOperand?_meets sound) _ e holds

theorem elementValue_meets : Meets P K (elementValue g) (Expr.Everywhere P) := by
  refine .looksAt_bind fun b => ?_
  split
  · refine .bind (sound .elements) ?_
    rintro ⟨lbrace, list, rbrace⟩ ⟨left, ofList, right⟩
    exact .pure ⟨trivial, left, ofList, right⟩
  · exact sound.expr

theorem element_meets : Meets P K (element g) (Expr.Everywhere P) := by
  refine .bind (elementValue_meets sound) fun key ofKey => ?_
  refine .bind (.acceptMark (by decide)) fun o colon => ?_
  cases o with
  | none => exact .pure ofKey
  | some s =>
    exact .bind (elementValue_meets sound) fun value ofValue => .pure ⟨ofKey, colon s rfl, ofValue⟩

theorem elementsRule_meets : Meets P K (elementsRule g) (Elements.Everywhere P) := by
  refine .bind (.expectMark (by decide)) fun lbrace left => ?_
  refine .bind (.enclosed (.commaList (element_meets sound) _)) fun list ofList => ?_
  refine .bind (.expectMark (by decide)) fun rbrace right => .pure ?_
  exact ⟨left, Expr.everywhereAll_iff.mpr ofList, right⟩

end Grammar

end GoLayout
