import GoLayout.Grammar.File
import GoLayout.Proofs.Spacing.Print
import GoLayout.Proofs.Spacing.Stmt

/-!
Whole files from moved tokens. What is read from a source with its tokens moved is the file as it
was read, moved, and nothing is read where the source as it was could not be read either.
-/

namespace GoLayout.Grammar

variable {m : Moving} {K : TokenKind → Prop}

/-- Every phrase is read by its rule, over readers that go one level less deep. -/
theorem readWithin_moves (depth : Nat) (p : Phrase) :
    Moves m K (readWithin depth p) (readWithin depth p) (p.move m) := by
  induction depth generalizing p K with
  | zero => exact .cutOff
  | succ depth ih =>
    have moved : Readers.Moved m ⟨depth, readWithin depth⟩ := fun p _ => ih p
    cases p with
    | type => exact typeRule_moves moved
    | binary min => exact binaryRule_moves moved
    | unary => exact unaryRule_moves moved
    | elements => exact elementsRule_moves moved
    | stmt => exact stmtRule_moves moved
    | ifStmt => exact ifRule_moves moved

theorem readers_moved (tokens : Nat) : (readers tokens).Moved m := fun p _ => readWithin_moves _ p

section Rules

variable {g : Readers} (moved : g.Moved m)

include moved

theorem funcDecl_moves (noEnd : ∀ k, K k → k ≠ .eof) :
    Moves m K (funcDecl g) (funcDecl g) (FuncDecl.move m) := by
  refine .lead_bind noEnd fun doc => .bind .expectKeyword fun funcPos => ?_
  apply Moves.looksAt_bind
  intro b
  extract_lets withReceiver withReceiver'
  have withReceiver_moves : ∀ receiver : Option FieldList,
      Moves m anyKind (withReceiver receiver) (withReceiver' (receiver.map (FieldList.move m)))
        (FuncDecl.move m) := by
    intro receiver
    refine .bind .ident fun name => .looksAt_bind fun b => ?_
    extract_lets withParams withParams'
    have withParams_moves : ∀ params : Option FieldList,
        Moves m anyKind (withParams params) (withParams' (params.map (FieldList.move m)))
          (FuncDecl.move m) := by
      intro params
      refine .bind (signature_moves moved) fun sig => .looksAt_bind fun b => ?_
      extract_lets withBody withBody'
      have withBody_moves : ∀ body : Option Block,
          Moves m anyKind (withBody body) (withBody' (body.map (Block.move m)))
            (FuncDecl.move m) := fun body => .bind .terminator fun _ => .pure rfl
      clear_value withBody withBody'
      split
      · exact .bind (.map moved.body fun _ => rfl) withBody_moves
      · exact .bind (.pure rfl) withBody_moves
    clear_value withParams withParams'
    split
    · exact .bind (.map (typeParams_moves moved) fun _ => rfl) withParams_moves
    · exact .bind (.pure rfl) withParams_moves
  clear_value withReceiver withReceiver'
  split
  · exact .bind (.map (valueParams_moves moved) fun _ => rfl) withReceiver_moves
  · exact .bind (.pure rfl) withReceiver_moves

theorem decl?_moves : Moves m K (decl? g) (decl? g) (Option.map (Decl.move m)) := by
  refine .bind (.skipSemis _) fun _ => .peek_bind fun k _ => ?_
  split
  · exact .pure rfl
  · exact .bind (genDecl_moves moved (isSolid_of_eq rfl)) fun d => .pure rfl
  · exact .bind (genDecl_moves moved (isSolid_of_eq rfl)) fun d => .pure rfl
  · exact .bind (genDecl_moves moved (isSolid_of_eq rfl)) fun d => .pure rfl
  · exact .bind (genDecl_moves moved (isSolid_of_eq rfl)) fun d => .pure rfl
  · refine .bind (funcDecl_moves moved ?_) fun f => .pure rfl
    rintro _ rfl
    nofun
  · exact .unexpected

omit moved in
/-- At the end of the source nothing is read that begins with a keyword. -/
theorem expectKeyword_atEnd {α γ : Type} {k : Keyword} {next : Link → Span → Reader α}
    {next' : Link → Span → Reader γ} {f : α → γ} :
    Moves m (· = .eof) (do next (← lead) (← expectKeyword k))
      (do next' (← lead) (← expectKeyword k)) f := by
  have fails : ∀ level c, c.current.kind = .eof → ∃ e, expectKeyword k c level = .error e := by
    intro level c atEnd
    have other : ¬ (c.current.kind == .keyword k) = true := by simp [atEnd]
    refine ⟨⟨.grammatical (.unexpected (.keyword k) c.current.kind), c.current.span⟩, ?_⟩
    change (if c.current.kind == .keyword k then step else unexpected (.keyword k)) c level = _
    rw [if_neg other]
    rfl
  intro level c atEnd
  obtain ⟨e, run⟩ := fails level c atEnd
  obtain ⟨e', run'⟩ := fails level (c.move m) atEnd
  change (Except.bind (expectKeyword k (c.move m) level) fun x =>
      next' _ x.1.1 x.1.2 x.2).toOption =
    (Except.bind (expectKeyword k c level) fun x => next _ x.1.1 x.1.2 x.2).toOption.map _
  rw [run, run']
  rfl

theorem file_moves (comments : List CommentGroup) (lines lines' : LineTable) :
    Moves m K (file g comments lines)
      (file g (comments.map (·.map (Comment.move m))) lines') (SourceFile.move m lines') := by
  intro level c _
  by_cases atEnd : c.current.kind = .eof
  · exact expectKeyword_atEnd level c atEnd
  · have read : Moves m (· ≠ .eof) (file g comments lines)
        (file g (comments.map (·.map (Comment.move m))) lines') (SourceFile.move m lines') := by
      refine .lead_bind (fun _ goesOn => goesOn) fun doc => ?_
      refine .bind .expectKeyword fun packagePos => .bind .ident fun name => ?_
      refine .bind .terminator fun _ => ?_
      exact .bind (.many (decl?_moves moved) _) fun decls => .pure rfl
    exact read level c atEnd

end Rules

/-- A whole input from moved tokens. -/
theorem Input.run_move {α γ : Type} {input input' : Input} {r : Readers → Reader α}
    {r' : Readers → Reader γ} {f : α → γ} (same : input'.cursor = input.cursor.move m)
    (read : ∀ g, g.Moved m → Moves m anyKind (r g) (r' g) f) :
    (input'.run r').toOption = (input.run r).toOption.map f := by
  have count : input'.cursor.rest.length = input.cursor.rest.length := by
    rw [same]
    exact List.length_map ..
  have ran := read (readers input.cursor.rest.length) (readers_moved _) 0 input.cursor trivial
  unfold Input.run
  rw [count, same]
  cases run : r (readers input.cursor.rest.length) input.cursor 0 with
  | error e =>
    cases run' : r' (readers input.cursor.rest.length) (input.cursor.move m) 0 with
    | error e' => rfl
    | ok x =>
      rw [run, run'] at ran
      nomatch ran
  | ok x =>
    cases run' : r' (readers input.cursor.rest.length) (input.cursor.move m) 0 with
    | error e' =>
      rw [run, run'] at ran
      nomatch ran
    | ok x' =>
      rw [run, run'] at ran
      obtain rfl : x' = ((f x.1.1, x.1.2.move m), x.2) := Option.some.inj ran
      rfl

end GoLayout.Grammar
