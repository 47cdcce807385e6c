import GoLayout.Grammar.Type
import GoLayout.Proofs.Form.Node

/-!
The rules for types, signatures and their fields read formed nodes. Members of structs and
interfaces are linked to the groups that trail them.
-/

namespace GoLayout

open Grammar (Tape Cursor Level)

/-- A type as it is read, with the cursor behind it. -/
structure TypeExpr.Read (tape : Tape) (t : TypeExpr) (c : Cursor) : Prop where
  formed : AllFormed tape t.nodes
  behind : tape.Behind t.stop c

/-- An expression as it is read on a level, with the cursor behind it. -/
structure Expr.Read (tape : Tape) (level : Level) (e : Expr) (c : Cursor) : Prop where
  formed : AllFormed tape e.nodes
  plain : e.isPlain
  guarded : level < 0 → e.Guarded
  behind : tape.Behind e.stop c

/-- A list in brackets as it is read, with the cursor behind it. -/
structure FieldList.Read (tape : Tape) (l : FieldList) (c : Cursor) : Prop where
  formed : AllFormed tape l.nodes
  behind : ∃ stop, l.stop? = some stop ∧ tape.Behind stop c

structure Signature.Read (tape : Tape) (sig : Signature) (c : Cursor) : Prop where
  formed : AllFormed tape sig.nodes
  behind : tape.Behind sig.stop c

/-- A member of a struct or an interface as it is read. -/
structure Field.Entered (tape : Tape) (f : Field) : Prop where
  formed : AllFormed tape f.nodes
  linked : tape.Linked f.stop f.comment

theorem TypeExpr.lastStop_eq {last : TypeExpr} : ∀ {ts : List TypeExpr},
    last ∈ ts.getLast? → TypeExpr.lastStop ts = last.stop
  | [_], rfl => rfl
  | _ :: t :: ts, h => by
    rw [List.getLast?_cons_cons] at h
    have rest : TypeExpr.lastStop (t :: ts) = last.stop := lastStop_eq h
    exact rest

namespace Grammar

/-- The operators at the cursor bind looser than `min`. -/
def Looser (min : Nat) (c : Cursor) : Prop :=
  ∀ m op, c.current.kind = .mark m → BinaryOp.ofMark? m = some op → op.precedence < min

variable {tape : Tape} {level : Level} {c : Cursor} {g : Readers}

/-- Readers that read formed nodes. An operator to the right of an expression would not have bound
it. -/
structure Readers.Forms (tape : Tape) (g : Readers) : Prop where
  type : ∀ {level c}, Grammar.Forms tape level c (g.read .type) (TypeExpr.Read tape)
  binary : ∀ min {level c}, Grammar.Forms tape level c (g.read (.binary min)) fun e c' =>
    e.Read tape level c' ∧ (∀ op ∈ e.operator?, min ≤ op.precedence) ∧ Looser min c'
  unary : ∀ {level c}, Grammar.Forms tape level c (g.read .unary) fun e c' =>
    e.Read tape level c' ∧ e.operator? = none
  elements : ∀ {level c}, Grammar.Forms tape level c (g.read .elements) fun els c' =>
    AllFormed tape (Expr.nodesAll els.list) ∧ tape.Behind els.rbrace.stop c'
  stmt : ∀ {level c}, Grammar.Forms tape level c (g.read .stmt) fun s _ => AllFormed tape s.nodes
  ifStmt : ∀ {level c}, Grammar.Forms tape level c (g.read .ifStmt) fun s _ => AllFormed tape s.nodes

/-- Expressions in a row as they are read, with the cursor behind the last one. -/
structure ReadAll (tape : Tape) (level : Level) (es : List Expr) (c : Cursor) : Prop where
  each : ∀ e ∈ es, AllFormed tape e.nodes
  plain : ∀ e ∈ es, e.isPlain
  guarded : level < 0 → ∀ e ∈ es, e.Guarded
  behind : ∃ last ∈ es.getLast?, tape.Behind last.stop c

namespace Readers.Forms

variable (forms : g.Forms tape)

include forms

theorem expr : Grammar.Forms tape level c g.expr (Expr.Read tape level) :=
  (forms.binary 1).mono fun _ _ read => read.1

theorem exprList : Grammar.Forms tape level c g.exprList (ReadAll tape level) := by
  refine (Forms.sepBy (Q := fun e => AllFormed tape e.nodes ∧ e.isPlain ∧ (level < 0 → e.Guarded))
    (J := fun e c' => tape.Behind e.stop c') (fun c => ?_) _).mono fun es c' ⟨all, last⟩ => ?_
  · exact forms.expr.mono fun e c' read => ⟨⟨read.formed, read.plain, read.guarded⟩, read.behind⟩
  · exact ⟨fun e mem => (all e mem).1, fun e mem => (all e mem).2.1,
      fun low e mem => (all e mem).2.2 low, last⟩

theorem stmtList : Grammar.Forms tape level c g.stmtList fun ss _ =>
    AllFormed tape (Stmt.nodesAll ss) := by
  refine (Forms.many (Q := fun s => AllFormed tape s.nodes) (fun c => ?_) _).mono fun ss _ all =>
    .stmts all
  unfold stmtList.stmt? stmtList.skipSemis
  refine .bind (.bind (.skipSemis _) fun _ _ _ => .pure (J := fun _ _ => True) trivial) ?_
  refine fun _ c' _ => .peek_bind ?_
  split
  · exact .pure nofun
  · exact .pure nofun
  · exact .pure nofun
  · exact .pure nofun
  · exact .optional forms.stmt

theorem block : Grammar.Forms tape level c g.block fun b c' =>
    AllFormed tape b.nodes ∧ tape.Behind b.rbrace.stop c' :=
  .bind (.expectMark nofun) fun _ _ _ => .bind forms.stmtList fun _ _ formed =>
    .bind (.expectMark nofun) fun _ _ behind => .pure ⟨formed, behind⟩

theorem body : Grammar.Forms tape level c g.body fun b c' =>
    AllFormed tape b.nodes ∧ tape.Behind b.rbrace.stop c' :=
  .enclosed forms.block

end Readers.Forms

theorem identList_forms : Forms tape level c g.identList fun names c' =>
    ∃ last ∈ names.getLast?, tape.Behind last.span.stop c' :=
  (Forms.sepBy (Q := fun _ => True) (J := fun i c' => tape.Behind i.span.stop c')
    (fun _ => Forms.ident.mono fun _ _ behind => ⟨trivial, behind⟩) _).mono fun _ _ read => read.2

/-! ### Parameters -/

namespace Param

def Formed (tape : Tape) : Param → Prop
  | .lone _ => True
  | .typed _ type => AllFormed tape type.nodes

theorem Formed.type {p : Param} (h : p.Formed tape) : AllFormed tape p.type.nodes := by
  cases p with
  | lone name => exact .node (.bare rfl rfl rfl) .nil
  | typed name type => exact h

theorem formed_field {names : List Ident} {type : TypeExpr} (h : AllFormed tape type.nodes) :
    AllFormed tape (field names type).nodes := .node (.bare rfl rfl rfl) h

theorem namedFields_forms {lparen : Span} {pending : List Ident} {entries : List Param}
    (h : ∀ p ∈ entries, p.Formed tape) :
    Forms tape level c (namedFields lparen pending entries) fun fs c' =>
      AllFormed tape (Field.nodesAll fs) ∧ c' = c := by
  fun_induction namedFields lparen pending entries with
  | case1 => exact .pure ⟨.nil, rfl⟩
  | case2 => exact .failAt
  | case3 pending name rest ih => exact ih fun p mem => h p (List.mem_cons_of_mem _ mem)
  | case4 pending name type rest ih =>
    refine .bind (ih fun p mem => h p (List.mem_cons_of_mem _ mem)) fun fs c' ⟨formed, same⟩ => ?_
    exact .pure ⟨.append (formed_field (h _ List.mem_cons_self)) formed, same⟩
  | case5 => exact .failAt

theorem fields_forms {lparen : Span} {entries : List Param} (h : ∀ p ∈ entries, p.Formed tape) :
    Forms tape level c (fields lparen entries) fun fs c' =>
      AllFormed tape (Field.nodesAll fs) ∧ c' = c := by
  unfold fields
  split
  · exact namedFields_forms h
  · refine .pure ⟨.fields ?_, rfl⟩
    exact List.forall_mem_map.mpr fun p mem => formed_field (h p mem).type

end Param

section Rules

variable (forms : g.Forms tape)

include forms

theorem constraint_forms : Forms tape level c (constraint g) (TypeExpr.Read tape) := by
  have term (c : Cursor) : Forms tape level c (constraintTerm g) fun t c' =>
      AllFormed tape t.nodes ∧ tape.Behind t.stop c' := by
    refine .acceptMark_bind nofun ?_ fun _ _ _ => ?_
    · exact forms.type.mono fun t _ read => ⟨read.formed, read.behind⟩
    · exact .bind forms.type fun t _ read => .pure ⟨.node (.bare rfl rfl rfl) read.formed, read.behind⟩
  refine .bind (Forms.sepBy term _) fun terms c' ⟨formed, last, isLast, behind⟩ => ?_
  split
  · obtain rfl := Option.some.inj isLast
    exact .pure ⟨formed _ List.mem_cons_self, behind⟩
  · refine .pure ⟨.node (.bare rfl rfl rfl) (.types formed), ?_⟩
    rw [TypeExpr.stop, TypeExpr.lastStop_eq isLast]
    exact behind

theorem paramType_forms {typeParams : Bool} :
    Forms tape level c (paramType g typeParams) (TypeExpr.Read tape) := by
  unfold paramType
  split
  · exact constraint_forms forms
  · refine .acceptMark_bind nofun forms.type fun _ _ _ => ?_
    exact .bind forms.type fun t _ read => .pure ⟨.node (.bare rfl rfl rfl) read.formed, read.behind⟩

theorem param_forms {closer : Mark} {typeParams : Bool} :
    Forms tape level c (param g closer typeParams) fun p _ => p.Formed tape := by
  refine .peek_bind ?_
  split
  · refine .peekNext_bind ?_
    split
    · exact .bind .ident fun _ _ _ => .pure trivial
    · split
      · exact .bind forms.type fun t _ read => .pure read.formed
      · refine .bind (J := fun _ _ => True) (.get_bind (.pure trivial)) fun _ _ _ => ?_
        split
        · exact .bind forms.type fun t _ read => .pure read.formed
        · exact .bind .ident fun _ _ _ => .bind (paramType_forms forms) fun t _ read =>
            .pure read.formed
  · exact .bind (paramType_forms forms) fun t _ read => .pure read.formed

theorem params_forms {opener closer : Mark} {typeParams : Bool} (opens : opener ≠ .semi)
    (closes : closer ≠ .semi) :
    Forms tape level c (params g opener closer typeParams) (FieldList.Read tape) := by
  refine .bind (.expect (TokenKind.isSolid_mark opens)) fun left _ _ => ?_
  refine .bind (.enclosed (.commaList (fun c => param_forms forms) _)) fun entries _ formed => ?_
  refine .bind (.expect (TokenKind.isSolid_mark closes)) fun right c' behind => ?_
  refine .bind (Param.fields_forms formed) fun fields _ ⟨formed, same⟩ => .pure ⟨formed, ?_⟩
  exact ⟨right.stop, rfl, same ▸ behind⟩

theorem valueParams_forms : Forms tape level c (valueParams g) (FieldList.Read tape) :=
  params_forms forms nofun nofun

theorem typeParams_forms : Forms tape level c (typeParams g) (FieldList.Read tape) :=
  params_forms forms nofun nofun

theorem signature_forms : Forms tape level c (signature g) (Signature.Read tape) := by
  refine .bind (valueParams_forms forms) fun ps c' ⟨params, stop, ends, behind⟩ => .peek_bind ?_
  split
  · refine .bind (valueParams_forms forms) fun rs _ ⟨results, stop', ends', behind'⟩ => .pure ?_
    refine ⟨.node (.bare rfl rfl rfl) (.append params results), ?_⟩
    rw [Signature.stop, ends']
    exact behind'
  · split
    · refine .bind forms.type fun t _ read => .pure ⟨.node (.bare rfl rfl rfl) ?_, read.behind⟩
      exact .append params (.append (Param.formed_field read.formed) .nil)
    · refine .pure ⟨.node (.bare rfl rfl rfl) (.append params .nil), ?_⟩
      rw [Signature.stop, ends]
      exact behind

/-! ### Members of structs and interfaces -/

omit forms in
theorem isEmbedded_forms : Forms tape level c isEmbedded fun _ c' => c' = c := by
  refine .peek_bind (.peekNext_bind ?_)
  split
  all_goals first
    | exact .pure rfl
    | exact .unexpected

theorem structField_forms : Forms tape level c (structField g) fun f _ => f.Entered tape := by
  refine .lead_bind fun doc => .bind isEmbedded_forms fun _ c' _ => ?_
  extract_lets withNames
  have withNames_forms (names : List Ident) (c : Cursor) :
      Forms tape level c (withNames names) fun f _ => f.Entered tape := by
    refine .bind forms.type fun type c' read => .peek_bind ?_
    extract_lets withTag
    have withTag_forms (tag : Option Literal) (c : Cursor)
        (behind : tape.Behind (Field.stop ⟨doc, names, type, tag, none⟩) c) :
        Forms tape level c (withTag tag) fun f _ => f.Entered tape := by
      refine .bind .terminator fun _ c' linked => .trail_bind (.pure ⟨?_, ?_⟩)
      · exact .node (.bare rfl rfl rfl) read.formed
      · have linked := linked _ behind
        cases tag with
        | none => exact linked
        | some _ => exact linked
    split
    · refine .bind .literal? fun tag c'' ⟨behind, same⟩ => withTag_forms tag c'' ?_
      cases tag with
      | none => exact same rfl ▸ read.behind
      | some tag => exact behind tag rfl
    · exact withTag_forms none c' read.behind
  split
  · exact withNames_forms [] c'
  · exact .bind identList_forms fun names c' _ => withNames_forms names c'

theorem interfaceElement_forms : Forms tape level c (interfaceElement g) fun f _ => f.Entered tape := by
  refine .lead_bind fun doc => .peek_bind (.peekNext_bind ?_)
  extract_lets finish
  have finish_forms (names : List Ident) (type : TypeExpr) (c : Cursor) (read : type.Read tape c) :
      Forms tape level c (finish (names, type)) fun f _ => f.Entered tape := by
    refine .bind .terminator fun _ c' linked => .trail_bind (.pure ⟨?_, linked _ read.behind⟩)
    exact .node (.bare rfl rfl rfl) read.formed
  split
  · refine .bind .ident fun name _ _ => .bind (signature_forms forms) fun sig c' read => ?_
    exact finish_forms [name] (.func none sig) c' ⟨.node (.bare rfl rfl rfl) read.formed, read.behind⟩
  · exact .bind (constraint_forms forms) fun type c' read => finish_forms [] type c' read

omit forms in
/-- Members in braces behind a keyword. -/
theorem members_forms {item : Reader Field}
    (h : ∀ c, Forms tape level c item fun f _ => f.Entered tape) (keyword : Keyword) {rounds : Nat}
    {make : Span → FieldList → TypeExpr}
    (nodes : ∀ pos l, (make pos l).nodes = .type (make pos l) :: l.nodes)
    (stop : ∀ pos l, (make pos l).stop = l.stop?.getD pos.stop)
    (own : ∀ pos l, (∀ f ∈ l.fields, tape.Linked f.stop f.comment) →
      (Node.type (make pos l)).Formed tape) :
    Forms tape level c
      (do
        let pos ← expectKeyword keyword
        let left ← expectMark .lbrace
        let fields ← upTo .rbrace item rounds
        let right ← expectMark .rbrace
        return make pos ⟨some ⟨left, right⟩, fields⟩)
      (TypeExpr.Read tape) := by
  refine .bind .expectKeyword fun pos _ _ => .bind (.expectMark nofun) fun left _ _ => ?_
  refine .bind (.upTo h _) fun fields _ entered => .bind (.expectMark nofun) fun right _ behind => ?_
  refine .pure ⟨?_, ?_⟩
  · rw [nodes]
    exact .node (own _ _ fun f mem => (entered f mem).linked) (.fields fun f mem => (entered f mem).formed)
  · rw [stop]
    exact behind

theorem structType_forms : Forms tape level c (structType g) (TypeExpr.Read tape) :=
  members_forms (fun _ => structField_forms forms) .kwStruct (fun _ _ => rfl) (fun _ _ => rfl)
    fun _ _ linked => ⟨.nil, nofun, List.forall_mem_map.mpr linked, trivial⟩

theorem interfaceType_forms : Forms tape level c (interfaceType g) (TypeExpr.Read tape) :=
  members_forms (fun _ => interfaceElement_forms forms) .kwInterface (fun _ _ => rfl) (fun _ _ => rfl)
    fun _ _ linked => ⟨.nil, nofun, List.forall_mem_map.mpr linked, trivial⟩

/-! ### Types -/

theorem typeName_forms : Forms tape level c (typeName g) (TypeExpr.Read tape) := by
  refine .bind .ident fun first c' behind => ?_
  extract_lets finish
  have finish_forms (qualifier : Option Qualifier) (name : Ident) (c : Cursor)
      (behind : tape.Behind name.span.stop c) :
      Forms tape level c (finish (qualifier, name)) (TypeExpr.Read tape) := by
    refine .looksAt_bind fun b => ?_
    split
    · refine .bind (.expectMark nofun) fun lbrack _ _ => ?_
      refine .bind (.enclosed (.commaList (Q := fun t => AllFormed tape t.nodes) (fun _ =>
        forms.type.mono fun _ _ read => read.formed) _)) fun args _ formed => ?_
      refine .bind (.expectMark nofun) fun rbrack _ behind => .pure ⟨?_, behind⟩
      exact .node (.bare rfl rfl rfl) (.types formed)
    · exact .pure ⟨.node (.bare rfl rfl rfl) .nil, behind⟩
  refine .acceptMark_bind nofun (finish_forms none first c' behind) fun dot _ _ => ?_
  exact .bind .ident fun name c' behind => finish_forms (some ⟨first, dot⟩) name c' behind

theorem bracketType_forms : Forms tape level c (bracketType g) (TypeExpr.Read tape) := by
  refine .bind (.expectMark nofun) fun lbrack _ _ => .acceptMark_bind nofun ?_ fun _ _ _ => ?_
  · refine .acceptMark_bind nofun ?_ fun _ _ _ => ?_
    · refine .bind (.enclosed forms.expr) fun len _ len_read => .bind (.expectMark nofun) fun _ _ _ => ?_
      refine .bind forms.type fun elem _ read => .pure ⟨.node ?_ ?_, read.behind⟩
      · exact ⟨.one len_read.plain, nofun, nofun, trivial⟩
      · exact .append len_read.formed read.formed
    · refine .bind (.expectMark nofun) fun _ _ _ => .bind forms.type fun elem _ read => ?_
      exact .pure ⟨.node (.bare rfl rfl rfl) read.formed, read.behind⟩
  · exact .bind forms.type fun elem _ read =>
      .pure ⟨.node (.bare rfl rfl rfl) read.formed, read.behind⟩

theorem mapType_forms : Forms tape level c (mapType g) (TypeExpr.Read tape) := by
  refine .bind .expectKeyword fun _ _ _ => .bind (.expectMark nofun) fun _ _ _ => ?_
  refine .bind forms.type fun key _ key_read => .bind (.expectMark nofun) fun _ _ _ => ?_
  refine .bind forms.type fun value _ read => .pure ⟨.node (.bare rfl rfl rfl) ?_, read.behind⟩
  exact .append key_read.formed read.formed

theorem chanType_forms : Forms tape level c (chanType g) (TypeExpr.Read tape) := by
  refine .bind .expectKeyword fun chanPos _ _ => ?_
  extract_lets finish
  have finish_forms (dir : ChanDir) (c : Cursor) :
      Forms tape level c (finish dir) (TypeExpr.Read tape) :=
    .bind forms.type fun elem _ read => .pure ⟨.node (.bare rfl rfl rfl) read.formed, read.behind⟩
  exact .acceptMark_bind nofun (finish_forms .both _) fun arrow _ _ => finish_forms (.send arrow) _

theorem typeRule_forms : Forms tape level c (typeRule g) (TypeExpr.Read tape) := by
  refine .peek_bind ?_
  split
  · exact typeName_forms forms
  · exact bracketType_forms forms
  · refine .bind .stepAny fun _ _ _ => .bind forms.type fun elem _ read => ?_
    exact .pure ⟨.node (.bare rfl rfl rfl) read.formed, read.behind⟩
  · refine .bind .stepAny fun _ _ _ => .bind forms.type fun inner _ read => ?_
    refine .bind (.expectMark nofun) fun _ _ behind => .pure ⟨?_, behind⟩
    exact .node (.bare rfl rfl rfl) read.formed
  · refine .bind .stepAny fun _ _ _ => .bind (signature_forms forms) fun sig _ read => ?_
    exact .pure ⟨.node (.bare rfl rfl rfl) read.formed, read.behind⟩
  · exact mapType_forms forms
  · exact chanType_forms forms
  · refine .bind .stepAny fun _ _ _ => .bind .expectKeyword fun _ _ _ => ?_
    exact .bind forms.type fun elem _ read =>
      .pure ⟨.node (.bare rfl rfl rfl) read.formed, read.behind⟩
  · exact structType_forms forms
  · exact interfaceType_forms forms
  · exact .unexpected

end Rules

end Grammar

end GoLayout
