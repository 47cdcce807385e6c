import GoLayout.Proofs.Grammar.File
import GoLayout.Proofs.Progress.Stmt

/-!
Reading always finishes. A phrase is read through phrases of lower ranks on the same token, and
through any phrases behind it, so a depth of a few levels for each token is enough; and a round of a
repetition that goes on passes a token. No source is cut off.
-/

namespace GoLayout

namespace Grammar

variable {n : Nat} {K : TokenKind → Prop} {g : Readers}

/-! ### Nesting -/

/-- The rule of a phrase needs, on the same token, readers for phrases of lower ranks only. -/
theorem rule_finishes (p : Phrase) (able : g.Able n p.rank) :
    Finishes n K (rule g p) fun _ => 1 := by
  cases p with
  | type => exact typeRule_finishes able
  | binary min => exact binaryRule_finishes able (by simp [Phrase.rank])
  | unary => exact unaryRule_finishes able (by decide)
  | elements => exact elementsRule_finishes able
  | stmt => exact stmtRule_finishes able (by decide)
  | ifStmt => exact ifRule_finishes able

theorem readWithin_finishes {depth : Nat} (p : Phrase) (enough : 4 * n + p.rank + 1 < depth) :
    Finishes n K (readWithin depth p) fun _ => 1 := by
  induction depth generalizing n K p with
  | zero => nomatch enough
  | succ depth ih =>
    refine rule_finishes p ⟨?_, ?_, ?_⟩
    · dsimp only
      omega
    · intro q lower
      exact ih q (by omega)
    · intro m fewer q
      have := q.rank_lt
      exact ih q (by omega)

theorem readers_able (n : Nat) : (readers n).Able n 4 where
  rounds := by simp only [readers]; omega
  read p _ := readWithin_finishes p (by have := p.rank_lt; omega)
  later m _ p := readWithin_finishes p (by have := p.rank_lt; omega)

/-! ### Files and expressions -/

section Readers

variable (able : g.Able n 4)

include able

theorem funcDecl_finishes : Finishes n K (funcDecl g) fun _ => 1 := by
  refine .lead_bind fun doc => .bindMoving .expectKeyword fun funcPos m fewer => ?_
  have behind := able.next fewer
  refine .looksAt_bind fun b => ?_
  extract_lets withReceiver
  have withReceiver_finishes : ∀ receiver,
      Finishes m anyKind (withReceiver receiver) fun _ => 0 := by
    intro receiver
    refine .bind .ident fun name => .looksAt_bind fun b => ?_
    extract_lets withParams
    have withParams_finishes : ∀ params, Finishes m anyKind (withParams params) fun _ => 0 := by
      intro params
      refine .bind (signature_finishes behind) fun sig => .looksAt_bind fun b => ?_
      extract_lets withBody
      have withBody_finishes : ∀ body, Finishes m anyKind (withBody body) fun _ => 0 :=
        fun body => .bind .terminator fun _ => .pure rfl
      split
      · exact .bind (.map (body_finishes behind)) withBody_finishes
      · exact .bind .idle withBody_finishes
    split
    · exact .bind (.map (typeParams_finishes behind)) withParams_finishes
    · exact .bind .idle withParams_finishes
  split
  · exact .bind (.map (valueParams_finishes behind)) withReceiver_finishes
  · exact .bind .idle withReceiver_finishes

/-- A round over declarations. -/
theorem decl?_finishes : Finishes n K (decl? g) ifSome := by
  refine .bind able.skipSemis fun _ => .peek_bind fun k _ => ?_
  have noEnd {kw : Keyword} : ∀ k, k = TokenKind.keyword kw → k ≠ .eof := ne_eof_of_eq nofun
  split
  · exact .pure rfl
  · exact .bindMoving (genDecl_finishes able noEnd) fun _ _ _ => .pure rfl
  · exact .bindMoving (genDecl_finishes able noEnd) fun _ _ _ => .pure rfl
  · exact .bindMoving (genDecl_finishes able noEnd) fun _ _ _ => .pure rfl
  · exact .bindMoving (genDecl_finishes able noEnd) fun _ _ _ => .pure rfl
  · exact .bindMoving (funcDecl_finishes able) fun _ _ _ => .pure rfl
  · exact .unexpected

theorem file_finishes {comments : List CommentGroup} {lines : LineTable} :
    Finishes n K (file g comments lines) fun _ => 1 := by
  refine .lead_bind fun doc => .bindMoving .expectKeyword fun packagePos m fewer => ?_
  have behind := able.next fewer
  refine .bind .ident fun name => .bind .terminator fun _ => ?_
  exact .bind (.many (decl?_finishes behind) behind.rounds) fun _ => .pure rfl

theorem wholeExpr_finishes : Finishes n K (wholeExpr g) fun _ => 1 := by
  refine .bindMoving able.expr fun e m fewer => .bind .acceptMark fun _ => .looksAt_bind fun b => ?_
  split
  · exact .pure rfl
  · exact .unexpected

end Readers

/-! ### Every loop and every source -/

/-- On any of the last `n + 1` tokens, a file, an expression and each phrase pass a token, and each
round of a repetition leaves it, fails or passes a token. -/
structure Readers.Progress (g : Readers) (n : Nat) : Prop where
  file (comments : List CommentGroup) (lines : LineTable) :
    Finishes n anyKind (file g comments lines) fun _ => 1
  wholeExpr : Finishes n anyKind (wholeExpr g) fun _ => 1
  phrase (p : Phrase) : Finishes n anyKind (g.read p) fun _ => 1
  decl : Finishes n anyKind (decl? g) ifSome
  semi : Finishes n anyKind (acceptMark .semi) ifSome
  spec (kind : DeclKind) (doc : Link) : Finishes n anyKind (spec g kind doc) fun _ => 1
  name : Finishes n anyKind ident fun _ => 1
  param (closer : Mark) (typeParams : Bool) :
    Finishes n anyKind (param g closer typeParams) fun _ => 1
  field : Finishes n anyKind (structField g) fun _ => 1
  element : Finishes n anyKind (interfaceElement g) fun _ => 1
  term : Finishes n anyKind (constraintTerm g) fun _ => 1
  typeArg : Finishes n anyKind g.type fun _ => 1
  expr : Finishes n anyKind g.expr fun _ => 1
  stmt : Finishes n anyKind (Readers.stmtList.stmt? g) ifSome
  caseClause : Finishes n anyKind (clauses.clause? (caseClause g)) ifSome
  commClause : Finishes n anyKind (clauses.clause? (commClause g)) ifSome
  argument : Finishes n anyKind (argument g) fun _ => 1
  index : Finishes n anyKind (nextIndex? g) ifSome
  literalElement : Finishes n anyKind (Grammar.element g) fun _ => 1
  operator (min : Nat) (left : Expr) : Finishes n anyKind (nextOperand? g min left) ifSome
  suffix (x : Expr) : Finishes n anyKind (suffix? g x) ifSome

theorem Readers.Able.progress (able : g.Able n 4) : g.Progress n where
  file _ _ := file_finishes able
  wholeExpr := wholeExpr_finishes able
  phrase p := able.read p p.rank_lt
  decl := decl?_finishes able
  semi := .acceptMark
  spec _ _ := spec_finishes able
  name := .ident
  param _ _ := param_finishes able
  field := structField_finishes able
  element := interfaceElement_finishes able
  term := constraintTerm_finishes able
  typeArg := able.type
  expr := able.expr
  stmt := stmt?_finishes able
  caseClause := clause?_finishes (caseClause_finishes able)
  commClause := clause?_finishes (commClause_finishes able)
  argument := argument_finishes able
  index := nextIndex?_finishes able
  literalElement := element_finishes able
  operator _ left := nextOperand?_finishes able left
  suffix x := suffix?_finishes able x

/-- The reading gave a tree, or one fault of the source. -/
def Settles {α : Type} : Except ParseFailure α → Prop
  | .ok _ => True
  | .error e => e.rest = [] ∧ e.first.fault ≠ .grammatical .cutOff

theorem Input.run_settles {α : Type} {k : α → Nat} {input : Input} {r : Readers → Reader α}
    (closed : input.cursor.Closed)
    (h : Finishes input.cursor.rest.length anyKind (r (readers input.cursor.rest.length)) k) :
    Settles (input.run r) := by
  have ends := h 0 input.cursor closed trivial (Nat.le_refl _)
  unfold Input.run
  cases read : r (readers input.cursor.rest.length) input.cursor 0 with
  | ok x => trivial
  | error d =>
    rw [read] at ends
    exact ⟨rfl, ends⟩

/-- The input that a source makes ends with the end of the source. -/
theorem Input.ofSource_closed {src : String} {input : Input} (h : Input.ofSource src = .ok input) :
    input.cursor.Closed := by
  obtain ⟨-, -, attached⟩ := Input.of_ofSource h
  have kept := Attached.attach_tokens (LineTable.ofSource src) 0 0
    ((Scan.ofSource src).tokens ++ [⟨.eof, .point src.utf8ByteSize⟩]) (Scan.ofSource src).comments
  rw [attached] at kept
  have last := congrArg List.getLast? kept
  rw [List.getLast?_map, List.getLast?_concat] at last
  obtain ⟨t, isLast, isEnd⟩ := Option.map_eq_some_iff.mp last
  exact ⟨t, isLast, congrArg Token.kind isEnd⟩

/-- Reading always finishes. Over any tokens that end with the end of the source, and with any
comments, the readers of a file and of an expression give a tree or one fault, and never come to
their bounds; each round of a repetition leaves it, fails or passes a token, and so does each
phrase, and the cursor never moves back. A rule comes back to its phrase behind a token only: on the
same token it needs readers for phrases of lower ranks and no others. -/
theorem reading_finishes :
    (∀ input : Input, input.cursor.Closed →
      (readers input.cursor.rest.length).Progress input.cursor.rest.length ∧
        Settles (input.run (file · input.comments input.lines)) ∧
        Settles (input.run wholeExpr)) ∧
      (∀ src, (Scan.ofSource src).faults = [] →
        Settles (SourceFile.parse src) ∧ Settles (Expr.parse src)) ∧
      ∀ (g : Readers) (n : Nat) (p : Phrase), g.Able n p.rank →
        Finishes n anyKind (rule g p) fun _ => 1 := by
  have progress (n : Nat) : (readers n).Progress n := (readers_able n).progress
  have settles (input : Input) (closed : input.cursor.Closed) :
      Settles (input.run (file · input.comments input.lines)) ∧ Settles (input.run wholeExpr) :=
    ⟨Input.run_settles closed ((progress _).file _ _),
      Input.run_settles closed (progress _).wholeExpr⟩
  refine ⟨fun input closed => ⟨progress _, settles input closed⟩, ?_, ?_⟩
  · intro src faultless
    obtain ⟨input, made⟩ := (Input.exists_ofSource_iff src).mpr faultless
    obtain ⟨ofFile, ofExpr⟩ := settles input (Input.ofSource_closed made)
    unfold SourceFile.parse Expr.parse
    rw [made]
    refine ⟨ofFile, ?_⟩
    change Settles (input.run wholeExpr >>= fun e => pure (e, input.comments))
    cases run : input.run wholeExpr with
    | ok e => trivial
    | error e =>
      rw [run] at ofExpr
      exact ofExpr
  · intro g n p able
    exact rule_finishes p able

end Grammar

end GoLayout
