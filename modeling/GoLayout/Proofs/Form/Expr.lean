import GoLayout.Proofs.Form.Type
import GoLayout.Proofs.Grammar.Basic

/-!
The rules for expressions read formed nodes. What is read as the right operand binds tighter than
its operator, and what follows an operand binds no tighter than the operator on its left, so that
operators group by precedence. Where no bracket is open in a header, an expression that names a type
is not taken as the type of a literal.
-/

namespace GoLayout

open Grammar (Tape Cursor Level)

variable {tape : Tape} {level : Level} {c c' : Cursor}

/-- An expression that may stand anywhere, with formed nodes. -/
structure Expr.Formed (tape : Tape) (e : Expr) : Prop where
  nodes : AllFormed tape e.nodes
  plain : e.isPlain

/-- An operand with its suffixes as it is read on a level, with the cursor behind it. -/
structure Expr.ReadOperand (tape : Tape) (level : Level) (e : Expr) (c : Cursor) : Prop where
  formed : AllFormed tape e.nodes
  operand : e.isOperand
  guarded : level < 0 → e.Guarded
  behind : tape.Behind e.stop c

namespace Expr

theorem Read.toFormed {e : Expr} (h : e.Read tape level c) : e.Formed tape := ⟨h.formed, h.plain⟩

theorem ReadOperand.read {e : Expr} (h : e.ReadOperand tape level c) : e.Read tape level c :=
  ⟨h.formed, isPlain_of_isOperand h.operand, h.guarded, h.behind⟩

/-- What is alone in the open. -/
theorem guarded_alone {e : Expr} (exposed : e.exposed = [e]) (h : ¬ e.isNamedLiteral) :
    e.Guarded := by
  rw [Guarded, exposed]
  exact List.forall_mem_singleton.mpr h

theorem guarded_around {e inner : Expr} (exposed : e.exposed = e :: inner.exposed)
    (h : ¬ e.isNamedLiteral) (below : inner.Guarded) : e.Guarded := by
  rw [Guarded, exposed]
  exact List.forall_mem_cons.mpr ⟨h, below⟩

theorem ReadOperand.ofType {t : TypeExpr} (h : t.Read tape c) :
    (Expr.type t).ReadOperand tape level c where
  formed := .node (.expr .nil) h.formed
  operand := rfl
  guarded := fun _ => guarded_alone rfl Bool.false_ne_true
  behind := h.behind

theorem asType_formed :
    Expr.AsType (fun e t => AllFormed tape e.nodes → AllFormed tape t.nodes)
      fun es ts => AllFormed tape (Expr.nodesAll es) → AllFormed tape (TypeExpr.nodesAll ts) where
  type := fun _ formed => (List.forall_mem_cons.mp formed).2
  name := fun _ _ => .node (.bare rfl rfl rfl) .nil
  member := fun _ _ _ _ => .node (.bare rfl rfl rfl) .nil
  generic := by
    intro operand base qualifier name lbrack indices args rbrack _ _ ofIndices formed
    have below := (List.forall_mem_append.mp (List.forall_mem_cons.mp formed).2).2
    exact .node (.bare rfl rfl rfl) (ofIndices below)
  paren := fun _ _ _ _ ofInner formed =>
    .node (.bare rfl rfl rfl) (ofInner (List.forall_mem_cons.mp formed).2)
  pointer := fun _ _ _ ofOperand formed =>
    .node (.bare rfl rfl rfl) (ofOperand (List.forall_mem_cons.mp formed).2)
  nil := fun _ => .nil
  cons := by
    intro e t es ts ofExpr ofRest formed
    obtain ⟨first, rest⟩ := List.forall_mem_append.mp formed
    exact .append (ofExpr first) (ofRest rest)

/-- Where no bracket is open in a header, the type of a literal is spelled with brackets or
braces. -/
theorem not_spellsName {e : Expr} {t : TypeExpr} (low : level < 0) (names : e.namesLiteral level)
    (found : e.toType? = some t) : ¬ t.spellsName := by
  have closed : ¬ decide (0 ≤ level) := by simpa using low
  fun_induction Expr.namesLiteral level e generalizing t with
  | case1 lparen inner rparen ih =>
    rw [Expr.toType?] at found
    obtain ⟨type, typeFound, found⟩ := Option.bind_eq_some_iff.mp found
    obtain rfl := Option.some.inj found
    have ofInner : ¬ type.spellsName := ih names typeFound
    exact ofInner
  | case2 | case3 | case4 => exact absurd names closed
  | case5 | case6 | case7 | case8 | case9 =>
    obtain rfl := Option.some.inj found
    exact Bool.false_ne_true
  | case10 => cases names

end Expr

namespace Grammar

variable {g : Readers}

section Rules

variable (forms : g.Forms tape)

include forms

/-! ### Operands -/

theorem funcOperand_forms : Forms tape level c (funcOperand g) (Expr.ReadOperand tape level) := by
  refine .bind .stepAny fun funcPos _ _ => .bind (signature_forms forms) fun sig c' read => ?_
  refine .looksAt_bind fun b => ?_
  split
  · refine .bind (.enclosed forms.body) fun body _ ⟨formed, behind⟩ => .pure ?_
    exact ⟨.node (.expr .nil) (.append read.formed formed), rfl,
      fun _ => Expr.guarded_alone rfl Bool.false_ne_true, behind⟩
  · exact .pure (.ofType ⟨.node (.bare rfl rfl rfl) read.formed, read.behind⟩)

theorem operand_forms : Forms tape level c (operand g) (Expr.ReadOperand tape level) := by
  have type : Forms tape level c (do return Expr.type (← g.type)) (Expr.ReadOperand tape level) :=
    .bind forms.type fun t _ read => .pure (.ofType read)
  refine .peek_bind ?_
  split
  · exact .bind .ident fun name _ behind => .pure ⟨.node (.expr .nil) .nil, rfl,
      fun _ => Expr.guarded_alone rfl Bool.false_ne_true, behind⟩
  · rename_i kind
    refine .bind (.step (by rw [kind]; rfl)) fun span _ behind => .pure ?_
    exact ⟨.node (.expr .nil) .nil, rfl, fun _ => Expr.guarded_alone rfl Bool.false_ne_true, behind⟩
  · refine .bind .stepAny fun lparen _ _ => .bind (.enclosed forms.expr) fun inner _ read => ?_
    refine .bind (.expectMark nofun) fun rparen _ behind => .pure ?_
    exact ⟨.node (.expr (.one read.plain)) read.formed, rfl,
      fun _ => Expr.guarded_alone rfl Bool.false_ne_true, behind⟩
  · exact funcOperand_forms forms
  · exact type
  · exact type
  · exact type
  · exact type
  · exact type
  · exact .unexpected

/-! ### Suffixes -/

/-- An expression where any may stand. -/
theorem formed_forms : Forms tape level c g.expr fun e _ => e.Formed tape :=
  forms.expr.mono fun _ _ read => read.toFormed

theorem dotSuffix_forms {x : Expr} (read : x.ReadOperand tape level c) :
    Forms tape level c (dotSuffix g x) (Expr.ReadOperand tape level) := by
  refine .bind (.expectMark nofun) fun dot _ _ => .peek_bind ?_
  split
  · refine .bind .ident fun member _ behind => .pure ?_
    exact ⟨.node (.expr (.one read.operand)) read.formed, rfl,
      fun low => Expr.guarded_around rfl Bool.false_ne_true (read.guarded low), behind⟩
  · refine .bind .stepAny fun lparen c' _ => ?_
    extract_lets finish
    have finish_forms (type : Option TypeExpr) (c : Cursor)
        (formed : AllFormed tape (TypeExpr.nodesOpt type)) :
        Forms tape level c (finish type) (Expr.ReadOperand tape level) := by
      refine .bind (.expectMark nofun) fun rparen _ behind => .pure ?_
      exact ⟨.node (.expr (.one read.operand)) (.append read.formed formed), rfl,
        fun low => Expr.guarded_around rfl Bool.false_ne_true (read.guarded low), behind⟩
    refine .skip_bind ?_ fun _ c'' => finish_forms none c'' .nil
    exact .bind (.optional forms.type) fun type c'' read => finish_forms type c'' <|
      .typeOpt fun t mem => (read t mem).formed
  · exact .unexpected

theorem nextIndex?_forms : Forms tape level c (nextIndex? g) fun o _ => ∀ e ∈ o, e.Formed tape := by
  refine .skip_bind (.pure nofun) fun _ c' => .looksAt_bind fun b => ?_
  split
  · exact .pure nofun
  · exact .optional (formed_forms forms)

theorem sliceBound_forms : Forms tape level c (sliceBound g) fun o _ => ∀ e ∈ o, e.Formed tape := by
  refine .peek_bind ?_
  split
  · exact .pure nofun
  · exact .pure nofun
  · exact .optional (formed_forms forms)

theorem sliceBounds_forms : Forms tape level c (sliceBounds g) fun b _ =>
    (∀ e ∈ b.1, e.Formed tape) ∧ ∀ e ∈ b.2.1, e.Formed tape := by
  refine .skip_bind (.pure ⟨nofun, nofun⟩) fun _ _ => .bind (sliceBound_forms forms) fun hi _ ofHi => ?_
  refine .skip_bind (.pure ⟨ofHi, nofun⟩) fun _ _ => ?_
  exact .bind (sliceBound_forms forms) fun max _ ofMax => .pure ⟨ofHi, ofMax⟩

theorem bracketSuffix_forms {x : Expr} (read : x.ReadOperand tape level c) :
    Forms tape level c (bracketSuffix g x) (Expr.ReadOperand tape level) := by
  refine .bind (.expectMark nofun) fun lbrack _ _ => .enclosed (.looksAt_bind fun b => ?_)
  extract_lets withFirst
  have slice_forms (first : Option Expr) (ofFirst : ∀ e ∈ first, e.Formed tape) (c : Cursor) :
      Forms tape (Enclosure.brackets.enter level) c
        (do
          let bounds ← sliceBounds g
          return Expr.slice x lbrack first bounds.1 bounds.2.1 bounds.2.2 (← expectMark .rbrack))
        (Expr.ReadOperand tape level) := by
    refine .bind (sliceBounds_forms forms) fun bounds _ ⟨ofHi, ofMax⟩ => ?_
    refine .bind (.expectMark nofun) fun rbrack _ behind => .pure ?_
    refine ⟨.node (.expr (.cons read.operand (.each ?_))) (.append (.append (.append read.formed
      (.exprOpt fun e mem => (ofFirst e mem).nodes)) (.exprOpt fun e mem => (ofHi e mem).nodes))
      (.exprOpt fun e mem => (ofMax e mem).nodes)), rfl,
      fun low => Expr.guarded_around rfl Bool.false_ne_true (read.guarded low), behind⟩
    simp only [List.mem_append, Option.mem_toList]
    rintro e ((mem | mem) | mem)
    · exact (ofFirst e mem).plain
    · exact (ofHi e mem).plain
    · exact (ofMax e mem).plain
  have withFirst_forms (first : Option Expr) (ofFirst : ∀ e ∈ first, e.Formed tape) (c : Cursor) :
      Forms tape (Enclosure.brackets.enter level) c (withFirst first)
        (Expr.ReadOperand tape level) := by
    refine .peek_bind ?_
    cases first with
    | none => exact slice_forms none nofun c
    | some first =>
      dsimp only
      split
      · refine .bind (.many (fun _ => nextIndex?_forms forms) _) fun more _ ofMore => ?_
        refine .bind (.expectMark nofun) fun rbrack _ behind => .pure ?_
        have all : ∀ e ∈ first :: more, e.Formed tape :=
          List.forall_mem_cons.mpr ⟨ofFirst first rfl, ofMore⟩
        refine ⟨.node (.expr (.cons read.operand (.each fun e mem => (all e mem).plain)))
          (.append read.formed (.exprs fun e mem => (all e mem).nodes)), rfl,
          fun low => Expr.guarded_around rfl Bool.false_ne_true (read.guarded low), behind⟩
      · exact slice_forms (some first) ofFirst c
  split
  · exact withFirst_forms none nofun _
  · exact .bind (.optional (formed_forms forms)) fun first c' formed => withFirst_forms first formed c'

theorem callSuffix_forms {x : Expr} (read : x.ReadOperand tape level c) :
    Forms tape level c (callSuffix g x) (Expr.ReadOperand tape level) := by
  have argument (c : Cursor) : Forms tape (Enclosure.brackets.enter level) c (argument g) fun a _ =>
      a.1.Formed tape :=
    .bind (formed_forms forms) fun arg _ formed => .bind .skip fun _ _ _ => .pure formed
  refine .bind (.expectMark nofun) fun lparen _ _ => ?_
  refine .bind (.enclosed (.commaList argument _)) fun args _ all => ?_
  refine .bind (.expectMark nofun) fun rparen _ behind => .pure ?_
  have formed : ∀ e ∈ args.map (·.1), e.Formed tape := List.forall_mem_map.mpr all
  refine ⟨.node (.expr (.cons read.operand (.each fun e mem => (formed e mem).plain))) ?_, rfl,
    fun low => Expr.guarded_around rfl Bool.false_ne_true (read.guarded low), behind⟩
  exact .append read.formed (.exprs fun e mem => (formed e mem).nodes)

theorem suffix?_forms {x : Expr} (read : x.ReadOperand tape level c) :
    Forms tape level c (suffix? g x) fun o c' =>
      (∀ e ∈ o, e.ReadOperand tape level c') ∧ (o = none → x.ReadOperand tape level c' ∧ True) := by
  have given {e : Expr} {c' : Cursor} (read' : e.ReadOperand tape level c') :
      (∀ e' ∈ some e, e'.ReadOperand tape level c') ∧
        (some e = none → x.ReadOperand tape level c' ∧ True) :=
    ⟨fun e' same => Option.some.inj same ▸ read', fun absent => absurd absent (Option.some_ne_none e)⟩
  have goes {r : Reader Expr} (h : Forms tape level c r (Expr.ReadOperand tape level)) :
      Forms tape level c (do return some (← r)) fun o c' =>
        (∀ e ∈ o, e.ReadOperand tape level c') ∧ (o = none → x.ReadOperand tape level c' ∧ True) :=
    .bind h fun _ _ read => .pure (given read)
  have ends : Forms tape level c (return none : Reader (Option Expr)) fun o c' =>
      (∀ e ∈ o, e.ReadOperand tape level c') ∧ (o = none → x.ReadOperand tape level c' ∧ True) :=
    .pure ⟨nofun, fun _ => ⟨read, trivial⟩⟩
  refine .peek_bind ?_
  split
  · exact goes (dotSuffix_forms forms read)
  · exact goes (bracketSuffix_forms forms read)
  · exact goes (callSuffix_forms forms read)
  · refine .level_bind ?_
    split
    · rename_i names
      split
      · rename_i type found
        refine .bind forms.elements fun els _ taken => .pure (given ?_)
        have ofType := Expr.asType_formed.all.1 x type found read.formed
        exact ⟨.node (.expr (.each fun _ _ => trivial)) (.append ofType taken.1), rfl,
          fun low => Expr.guarded_alone rfl (Expr.not_spellsName low names found), taken.2⟩
      · exact ends
    · exact ends
  · exact ends

theorem suffixes_forms {x : Expr} (read : x.ReadOperand tape level c) :
    Forms tape level c (suffixes g x) (Expr.ReadOperand tape level) :=
  (Forms.grow (D := fun _ _ => True) (fun _ _ read => suffix?_forms forms read) _ x read).mono
    fun _ _ read => read.1

/-! ### Operators and literals -/

theorem unaryRule_forms : Forms tape level c (unaryRule g) fun e c' =>
    e.Read tape level c' ∧ e.operator? = none := by
  have done {r : Reader Expr} (h : Forms tape level c r (Expr.ReadOperand tape level)) :
      Forms tape level c r fun e c' => e.Read tape level c' ∧ e.operator? = none :=
    h.mono fun _ _ read => ⟨read.read, Expr.operator?_of_isOperand read.operand⟩
  have plain : Forms tape level c (do suffixes g (← operand g)) fun e c' =>
      e.Read tape level c' ∧ e.operator? = none :=
    done (.bind (operand_forms forms) fun _ _ read => suffixes_forms forms read)
  refine .peek_bind (.peekNext_bind ?_)
  split
  · exact done (.bind forms.type fun _ _ read => suffixes_forms forms (.ofType read))
  · split
    · refine .bind .stepAny fun opPos _ _ => .bind forms.unary fun e _ ⟨read, alone⟩ => ?_
      refine .pure ⟨⟨.node (.expr (.one ⟨read.plain, alone⟩)) read.formed, rfl,
        fun low => Expr.guarded_around rfl Bool.false_ne_true (read.guarded low), read.behind⟩, rfl⟩
    · exact plain
  · exact plain

/-- An expression of operators that bind at least as tight as `min`, with the cursor behind it. An
operator at the cursor would not bind the operands of its last one. -/
structure Climbed (tape : Tape) (level : Level) (min : Nat) (e : Expr) (c : Cursor) : Prop where
  read : e.Read tape level c
  tight : ∀ op ∈ e.operator?, min ≤ op.precedence
  looser : ∀ op ∈ e.operator?, Looser (op.precedence + 1) c

theorem nextOperand?_forms {min : Nat} {left : Expr} (climbed : Climbed tape level min left c) :
    Forms tape level c (nextOperand? g min left) fun o c' =>
      (∀ e ∈ o, Climbed tape level min e c') ∧
        (o = none → Climbed tape level min left c' ∧ Looser min c') := by
  refine .peek_bind ?_
  split
  · rename_i m kind
    split
    · rename_i op isOp
      split
      · rename_i loose
        refine .pure ⟨nofun, fun _ => ⟨climbed, fun m' op' kind' isOp' => ?_⟩⟩
        cases kind.symm.trans kind'
        cases isOp.symm.trans isOp'
        exact loose
      · rename_i tight
        refine .bind .stepAny fun opPos _ _ => ?_
        refine .bind (forms.binary _) fun right c' ⟨read, above, looser⟩ => .pure ⟨?_, nofun⟩
        rintro _ ⟨⟩
        have leftOk : Role.Admits (.leftOf op) left := ⟨climbed.read.plain, fun o top =>
          Nat.le_of_lt_succ (climbed.looser o top m op kind isOp)⟩
        have rightOk : Role.Admits (.rightOf op) right := ⟨read.plain, above⟩
        refine ⟨⟨.node (.expr (.cons leftOk (.one rightOk)))
          (.append climbed.read.formed read.formed), rfl, fun low => ?_, read.behind⟩, ?_, ?_⟩
        · exact List.forall_mem_cons.mpr ⟨Bool.false_ne_true,
            List.forall_mem_append.mpr ⟨climbed.read.guarded low, read.guarded low⟩⟩
        · rintro _ ⟨⟩
          exact Nat.le_of_not_lt tight
        · rintro _ ⟨⟩
          exact looser
    · rename_i noOp
      refine .pure ⟨nofun, fun _ => ⟨climbed, fun m' op' kind' isOp' => ?_⟩⟩
      cases kind.symm.trans kind'
      cases noOp.symm.trans isOp'
  · rename_i other
    exact .pure ⟨nofun, fun _ => ⟨climbed, fun m' op' kind' _ => absurd kind' (other m')⟩⟩

theorem binaryRule_forms {min : Nat} : Forms tape level c (binaryRule g min) fun e c' =>
    e.Read tape level c' ∧ (∀ op ∈ e.operator?, min ≤ op.precedence) ∧ Looser min c' := by
  refine .bind forms.unary fun e c' ⟨read, alone⟩ => ?_
  refine (Forms.grow (A := Climbed tape level min) (D := fun _ => Looser min)
    (fun _ _ climbed => nextOperand?_forms forms climbed) _ e ⟨read, ?_, ?_⟩).mono
    fun _ _ ⟨climbed, looser⟩ => ⟨climbed.read, climbed.tight, looser⟩
  · simp [alone]
  · simp [alone]

theorem elementValue_forms : Forms tape level c (elementValue g) fun e _ =>
    AllFormed tape e.nodes ∧ ¬ e.isKeyValue := by
  refine .looksAt_bind fun b => ?_
  split
  · refine .bind forms.elements fun els _ ⟨formed, _⟩ => .pure ⟨?_, Bool.false_ne_true⟩
    exact .node (.expr (.each fun _ _ => trivial)) formed
  · refine forms.expr.mono fun e _ read => ⟨read.formed, fun isKey => ?_⟩
    have plain := read.plain
    cases e with
    | keyValue key colon value => cases plain
    | _ => cases isKey

theorem element_forms : Forms tape level c (element g) fun e _ => AllFormed tape e.nodes := by
  refine .bind (elementValue_forms forms) fun key _ ⟨ofKey, noKey⟩ => ?_
  refine .skip_bind (.pure ofKey) fun colon _ => ?_
  refine .bind (elementValue_forms forms) fun value _ ⟨ofValue, noKey'⟩ => .pure ?_
  exact .node (.expr (.cons noKey (.one noKey'))) (.append ofKey ofValue)

theorem elementsRule_forms : Forms tape level c (elementsRule g) fun els c' =>
    AllFormed tape (Expr.nodesAll els.list) ∧ tape.Behind els.rbrace.stop c' := by
  refine .bind (.expectMark nofun) fun lbrace _ _ => ?_
  refine .bind (.enclosed (.commaList (fun _ => element_forms forms) _)) fun list _ all => ?_
  exact .bind (.expectMark nofun) fun rbrace _ behind => .pure ⟨.exprs all, behind⟩

end Rules

end Grammar

end GoLayout
