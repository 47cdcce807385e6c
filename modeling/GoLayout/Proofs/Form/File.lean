import GoLayout.Grammar.File
import GoLayout.Proofs.Form.Part
import GoLayout.Proofs.Form.Stmt
import GoLayout.Proofs.Grammar.File
import GoLayout.Proofs.Progress.File

/-!
The nodes of a file as it is read, and of a single expression. Operators group by precedence, the
headers of control statements leave the braces of their bodies alone, and whatever is read, the
level behind it is the one before it.
-/

namespace GoLayout

open Grammar (Tape Cursor Level)

namespace Grammar

variable {tape : Tape} {level : Level} {c : Cursor} {α : Type}

/-- Every phrase reads formed nodes as its rule does, over readers that go one level less deep. -/
theorem readWithin_forms (depth : Nat) : (Readers.mk depth (readWithin depth)).Forms tape := by
  induction depth with
  | zero => exact ⟨.cutOff, fun _ => .cutOff, .cutOff, .cutOff, .cutOff, .cutOff⟩
  | succ depth ih =>
    exact ⟨typeRule_forms ih, fun _ => binaryRule_forms ih, unaryRule_forms ih,
      elementsRule_forms ih, stmtRule_forms ih, ifRule_forms ih⟩

section Rules

variable {g : Readers} (forms : g.Forms tape)

include forms

theorem funcDecl_forms : Forms tape level c (funcDecl g) fun f _ => AllFormed tape f.nodes := by
  refine .lead_bind fun doc => .bind .expectKeyword fun funcPos c' _ => .looksAt_bind fun b => ?_
  extract_lets withReceiver
  have withReceiver_forms (receiver : Option FieldList) (c : Cursor)
      (ofReceiver : ∀ l ∈ receiver, AllFormed tape l.nodes) :
      Forms tape level c (withReceiver receiver) fun f _ => AllFormed tape f.nodes := by
    refine .bind .ident fun name c' _ => .looksAt_bind fun b => ?_
    extract_lets withParams
    have withParams_forms (params : Option FieldList) (c : Cursor)
        (ofParams : ∀ l ∈ params, AllFormed tape l.nodes) :
        Forms tape level c (withParams params) fun f _ => AllFormed tape f.nodes := by
      refine .bind (signature_forms forms) fun sig c' read => .looksAt_bind fun b => ?_
      extract_lets withBody
      have withBody_forms (body : Option Block) (c : Cursor)
          (ofBody : ∀ b ∈ body, AllFormed tape b.nodes) :
          Forms tape level c (withBody body) fun f _ => AllFormed tape f.nodes := by
        refine .bind .terminator fun _ _ _ => .pure (.node (.bare rfl rfl rfl) ?_)
        refine .append (.append (.append (.listOpt ofReceiver) (.listOpt ofParams)) read.formed) ?_
        cases body with
        | none => exact .nil
        | some b => exact ofBody b rfl
      split
      · refine .bind (.optional forms.body) fun body c' ofBody => ?_
        exact withBody_forms body c' fun b mem => (ofBody b mem).1
      · exact withBody_forms none c' nofun
    split
    · refine .bind (.optional (typeParams_forms forms)) fun params c' read => ?_
      exact withParams_forms params c' fun l mem => (read l mem).formed
    · exact withParams_forms none c' nofun
  split
  · refine .bind (.optional (valueParams_forms forms)) fun receiver c' read => ?_
    exact withReceiver_forms receiver c' fun l mem => (read l mem).formed
  · exact withReceiver_forms none c' nofun

theorem decl?_forms : Forms tape level c (decl? g) fun o _ => ∀ d ∈ o, AllFormed tape d.nodes := by
  have gen (kind : DeclKind) (c : Cursor) :
      Forms tape level c (do return some (Decl.gen (← genDecl g kind))) fun o _ =>
        ∀ d ∈ o, AllFormed tape d.nodes := by
    refine .bind (genDecl_forms forms) fun d _ formed => .pure ?_
    rintro _ ⟨⟩
    exact formed
  refine .bind (.skipSemis _) fun _ c' _ => .peek_bind ?_
  split
  · exact .pure nofun
  · exact gen .imports c'
  · exact gen .consts c'
  · exact gen .vars c'
  · exact gen .types c'
  · refine .bind (funcDecl_forms forms) fun f _ formed => .pure ?_
    rintro _ ⟨⟩
    exact formed
  · exact .unexpected

theorem file_forms {comments : List CommentGroup} {lines : LineTable} :
    Forms tape level c (file g comments lines) fun f _ =>
      AllFormed tape f.nodes ∧ f.comments = comments := by
  refine .lead_bind fun doc => .bind .expectKeyword fun packagePos _ _ => .bind .ident fun name _ _ => ?_
  refine .bind .terminator fun _ _ _ => .bind (.many (fun _ => decl?_forms forms) _) fun ds _ all => ?_
  refine .pure ⟨fun m mem => ?_, rfl⟩
  obtain ⟨d, inFile, mem⟩ := List.mem_flatMap.mp mem
  exact all d inFile m mem

theorem wholeExpr_forms : Forms tape level c (wholeExpr g) fun e _ => e.Formed tape := by
  refine .bind (formed_forms forms) fun e _ formed => .bind .skip fun _ _ _ => .looksAt_bind fun b => ?_
  split
  · exact .pure formed
  · exact .unexpected

end Rules

/-- The tokens of an input that a source makes. -/
def Input.asTape (input : Input) (closed : input.cursor.Closed) : Tape :=
  ⟨input.cursor.left, closed⟩

/-- What readers form of the tokens of an input, they form when they run on it. -/
theorem Input.formed_of_run {input : Input} {r : Readers → Reader α} {a : α}
    {J : α → Cursor → Prop} (run : input.run r = .ok a) (closed : input.cursor.Closed)
    (forms : Forms (input.asTape closed) 0 input.cursor (r (readers input.cursor.rest.length)) J) :
    ∃ c', J a c' := by
  obtain ⟨c', level', read⟩ := Input.of_run_eq_ok run
  exact ⟨c', (forms ⟨[], rfl⟩ a c' level' read).2.2⟩

/-! ### Levels -/

/-- Whatever is read, the level is the same again. -/
def Restores (r : Reader α) : Prop :=
  ∀ (c : Cursor) (level : Level) a c' level', c.Closed → r c level = .ok ((a, c'), level') →
    level' = level

theorem Restores.of_forms {r : Reader α} {J : Tape → Level → α → Cursor → Prop}
    (h : ∀ tape level c, Forms tape level c r (J tape level)) : Restores r :=
  fun c level a c' level' closed read =>
    (h ⟨c.left, closed⟩ level c ⟨[], rfl⟩ a c' level' read).1

/-- Each construct restores the level. -/
structure Readers.Restoring (g : Readers) : Prop where
  file (comments : List CommentGroup) (lines : LineTable) : Restores (file g comments lines)
  wholeExpr : Restores (wholeExpr g)
  phrase (p : Phrase) : Restores (g.read p)
  exprList : Restores g.exprList
  stmtList : Restores g.stmtList
  block : Restores g.block
  body : Restores g.body
  funcDecl : Restores (funcDecl g)
  genDecl (kind : DeclKind) : Restores (genDecl g kind)
  spec (kind : DeclKind) (doc : Link) : Restores (spec g kind doc)
  valueParams : Restores (valueParams g)
  typeParams : Restores (typeParams g)
  signature : Restores (signature g)
  constraint : Restores (constraint g)
  field : Restores (structField g)
  member : Restores (interfaceElement g)
  operand : Restores (operand g)
  element : Restores (element g)
  simple (labelOk rangeOk : Bool) : Restores (simple g labelOk rangeOk)
  ifHeader : Restores (ifHeader g)
  switchHeader : Restores (switchHeader g)
  loopHeader : Restores (loopHeader g)
  caseClause : Restores (caseClause g)
  commClause : Restores (commClause g)
  switchStmt : Restores (switchStmt g)
  selectStmt : Restores (selectStmt g)
  forStmt : Restores (forStmt g)

theorem Readers.restoring_of_forms {g : Readers} (forms : ∀ tape, g.Forms tape) : g.Restoring where
  file _ _ := .of_forms fun tape _ _ => file_forms (forms tape)
  wholeExpr := .of_forms fun tape _ _ => wholeExpr_forms (forms tape)
  phrase p := by
    cases p with
    | type => exact .of_forms fun tape _ _ => (forms tape).type
    | binary min => exact .of_forms fun tape _ _ => (forms tape).binary min
    | unary => exact .of_forms fun tape _ _ => (forms tape).unary
    | elements => exact .of_forms fun tape _ _ => (forms tape).elements
    | stmt => exact .of_forms fun tape _ _ => (forms tape).stmt
    | ifStmt => exact .of_forms fun tape _ _ => (forms tape).ifStmt
  exprList := .of_forms fun tape _ _ => (forms tape).exprList
  stmtList := .of_forms fun tape _ _ => (forms tape).stmtList
  block := .of_forms fun tape _ _ => (forms tape).block
  body := .of_forms fun tape _ _ => (forms tape).body
  funcDecl := .of_forms fun tape _ _ => funcDecl_forms (forms tape)
  genDecl _ := .of_forms fun tape _ _ => genDecl_forms (forms tape)
  spec _ _ := .of_forms fun tape _ _ => spec_forms (forms tape)
  valueParams := .of_forms fun tape _ _ => valueParams_forms (forms tape)
  typeParams := .of_forms fun tape _ _ => typeParams_forms (forms tape)
  signature := .of_forms fun tape _ _ => signature_forms (forms tape)
  constraint := .of_forms fun tape _ _ => constraint_forms (forms tape)
  field := .of_forms fun tape _ _ => structField_forms (forms tape)
  member := .of_forms fun tape _ _ => interfaceElement_forms (forms tape)
  operand := .of_forms fun tape _ _ => operand_forms (forms tape)
  element := .of_forms fun tape _ _ => element_forms (forms tape)
  simple _ _ := .of_forms fun tape _ _ => simple_forms (forms tape)
  ifHeader := .of_forms fun tape _ _ => ifHeader_forms (forms tape)
  switchHeader := .of_forms fun tape _ _ => switchHeader_forms (forms tape)
  loopHeader := .of_forms fun tape _ _ => loopHeader_forms (forms tape)
  caseClause := .of_forms fun tape _ _ => caseClause_forms (forms tape)
  commClause := .of_forms fun tape _ _ => commClause_forms (forms tape)
  switchStmt := .of_forms fun tape _ _ => switchStmt_forms (forms tape)
  selectStmt := .of_forms fun tape _ _ => selectStmt_forms (forms tape)
  forStmt := .of_forms fun tape _ _ => forStmt_forms (forms tape)

end Grammar

/-- The nodes of a file are formed over the tokens of its source. -/
theorem SourceFile.formed_of_parse {src : String} {f : SourceFile} (read : parse src = .ok f) :
    ∃ input, Grammar.Input.ofSource src = .ok input ∧
      ∃ closed, AllFormed (input.asTape closed) f.nodes ∧ f.comments = input.comments := by
  obtain ⟨input, made, run⟩ := exists_of_bind_eq_ok read
  have closed := Grammar.Input.ofSource_closed made
  obtain ⟨_, formed⟩ := Grammar.Input.formed_of_run run closed
    (Grammar.file_forms (Grammar.readWithin_forms _))
  exact ⟨input, made, closed, formed⟩

theorem Expr.formed_of_parse {src : String} {e : Expr} {comments : List CommentGroup}
    (read : Expr.parse src = .ok (e, comments)) : ∃ tape, e.Formed tape := by
  obtain ⟨input, made, run⟩ := exists_of_bind_eq_ok read
  obtain ⟨_, whole, same⟩ := exists_of_bind_eq_ok run
  cases same
  have closed := Grammar.Input.ofSource_closed made
  obtain ⟨_, formed⟩ := Grammar.Input.formed_of_run whole closed
    (Grammar.wholeExpr_forms (Grammar.readWithin_forms _))
  exact ⟨_, formed⟩

/-! ### Precedence -/

/-- The expressions among the nodes are in precedence normal form: each stands in a role and is as
that role asks, but for the given ones, which may stand anywhere. -/
structure NormalForm (es : List Expr) (ms : List Node) : Prop where
  placed : Placed es ms
  admitted : ∀ m ∈ ms, Admitted m.parts
  plain : ∀ e ∈ es, e.isPlain

/-- The expressions of every file, and every single expression, are read in precedence normal
form. -/
theorem parse_normal :
    (∀ src f, SourceFile.parse src = .ok f → NormalForm [] f.nodes) ∧
      ∀ src e comments, Expr.parse src = .ok (e, comments) → NormalForm [e] e.nodes := by
  constructor
  · intro src f read
    obtain ⟨input, -, closed, formed, -⟩ := SourceFile.formed_of_parse read
    exact ⟨f.exprs_placed, fun m mem => (formed m mem).parts, by simp⟩
  · intro src e comments read
    obtain ⟨tape, formed⟩ := Expr.formed_of_parse read
    exact ⟨e.placed, fun m mem => (formed.nodes m mem).parts, by simpa using formed.plain⟩

/-- Operators of all kinds, and a literal with a key and with braces alone in it. -/
theorem parse_normal_of_operators :
    (∃ f, SourceFile.parse "package p\n\nvar x = a + b*-c - T\x7b1: \x7b2\x7d\x7d.d\n" = .ok f ∧
      NormalForm [] f.nodes) ∧
      ∃ e comments, Expr.parse "a - b - c*d" = .ok (e, comments) ∧ NormalForm [e] e.nodes := by
  constructor
  · generalize source : SourceFile.parse _ = parsed
    have accepted : parsed.toOption.isSome := by
      rw [← source]
      decide +kernel
    cases parsed with
    | error e => cases accepted
    | ok f => exact ⟨f, rfl, parse_normal.1 _ f source⟩
  · generalize source : Expr.parse _ = parsed
    have accepted : parsed.toOption.isSome := by
      rw [← source]
      decide +kernel
    cases parsed with
    | error e => cases accepted
    | ok x => exact ⟨x.1, x.2, rfl, parse_normal.2 _ x.1 x.2 source⟩

/-! ### Headers -/

/-- In the headers of all control statements of a file, a literal behind the name of a type is never
in the open: between parentheses, brackets or braces, in a type or in a function it can not take the
brace of the body. And each construct leaves the level as it found it, wherever it is read. -/
theorem SourceFile.headers_guarded {src : String} {f : SourceFile} (read : parse src = .ok f) :
    (∀ m ∈ f.nodes, ∀ s ∈ m.heading, s.Guarded ∧
      ∀ e ∈ s.exprs, ∀ x, .expr x ∈ e.nodes → x.isNamedLiteral → .expr x ∈ e.sheltered) ∧
      ∀ tokens, (Grammar.readers tokens).Restoring := by
  refine ⟨fun m mem s inHeader => ?_, fun tokens =>
    Grammar.Readers.restoring_of_forms fun _ => Grammar.readWithin_forms _⟩
  obtain ⟨input, -, closed, formed, -⟩ := formed_of_parse read
  have guarded := (formed m mem).heading s inHeader
  refine ⟨guarded, fun e inStmt x below named => ?_⟩
  rcases Expr.exposed_or_sheltered below with ⟨y, exposed, same⟩ | sheltered
  · cases same
    exact absurd named (guarded.exprs e inStmt x exposed)
  · exact sheltered

/-- The literal in parentheses is not in the open, and the brace behind `T` is that of the body. -/
theorem SourceFile.headers_guarded_of_literal :
    ∃ f, SourceFile.parse
      "package p\n\nfunc f() \x7b\n\tif x == (T\x7b1\x7d) && y == T \x7b\n\t\x7d\n\x7d\n" = .ok f ∧
      (∃ m ∈ f.nodes, m.heading ≠ []) ∧ ∀ m ∈ f.nodes, ∀ s ∈ m.heading, s.Guarded := by
  generalize source : SourceFile.parse _ = parsed
  have headed : parsed.toOption.any fun f => f.nodes.any (!·.heading.isEmpty) := by
    rw [← source]
    decide +kernel
  cases parsed with
  | error e => cases headed
  | ok f =>
    obtain ⟨m, mem, some⟩ := List.any_eq_true.mp headed
    refine ⟨f, rfl, ⟨m, mem, ?_⟩, fun m mem s inHeader => ?_⟩
    · simpa using some
    · exact ((SourceFile.headers_guarded source).1 m mem s inHeader).1

end GoLayout
