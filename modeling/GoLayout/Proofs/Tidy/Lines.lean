import GoLayout.Proofs.Format
import GoLayout.Proofs.Settle.File

/-!
What a tidied file promises of its lines: literals are broken around all that is composite or not
at all, an error is checked next to where it is defined, and function bodies have no blank lines at
their ends. The rules are applied on entering a block, to statements as they were, and a declaration
that becomes an assignment is an exception to the latter two: it defines no error yet, and where it
is documented or has no parentheses, the lines between its keyword and the assignment stay.
-/

namespace GoLayout

/-- The lists of statements that a node has, as a block or as a clause. -/
def Node.bodies : Node → List (List Stmt)
  | .expr (.func _ _ body) => [body.stmts]
  | .func f => f.body.toList.map Block.stmts
  | .stmt (.block body) | .stmt (.ifElse _ _ _ body _) | .stmt (.switch _ _ _ body)
  | .stmt (.typeSwitch _ _ _ body) | .stmt (.select _ body) | .stmt (.forLoop _ _ _ _ body)
  | .stmt (.range _ _ _ _ _ _ body) => [body.stmts]
  | .stmt (.caseClause _ _ _ body) | .stmt (.commClause _ _ _ body) => [body]
  | _ => []

/-- The body of a function that is declared or a literal. -/
def Node.funcBody? : Node → Option Block
  | .expr (.func _ _ body) => some body
  | .func f => f.body
  | _ => none

/-- Between the braces of a block and what stands next to them are no blank lines. -/
def Block.Tight (t : LineTable) (comments : List CommentGroup) (b : Block) : Prop :=
  ∀ e ∈ b.extent? comments,
    t.line e.1 ≤ t.line b.lbrace.start + 1 ∧ t.line b.rbrace.start ≤ t.line (e.2 - 1) + 1

instance {t : LineTable} {comments : List CommentGroup} : DecidablePred (Block.Tight t comments) :=
  fun b => inferInstanceAs (Decidable (∀ e ∈ b.extent? comments, _ ∧ _))

namespace Node

variable {k : Setting} {t : LineTable} {m : Node}

theorem Tidy.errsChecked (h : m.Tidy k t) (extra : k.extra) :
    ∀ ss ∈ m.bodies, Stmt.ErrsChecked k t ss := by
  have ofBlock {role : BlockRole} {body : Block} (tidy : body.Tidy k t role) :
      ∀ ss ∈ [body.stmts], Stmt.ErrsChecked k t ss :=
    List.forall_mem_singleton.mpr (tidy.errs extra)
  cases m with
  | func f =>
    cases isBody : f.body with
    | none => simp [bodies, isBody]
    | some body =>
      rw [bodies, isBody]
      exact ofBlock (h body isBody)
  | expr e =>
    cases e with
    | func => exact ofBlock h
    | _ => exact nofun
  | stmt s =>
    cases s with
    | caseClause | commClause => exact List.forall_mem_singleton.mpr (h extra)
    | block | ifElse | switch | typeSwitch | select | forLoop | range => exact ofBlock h
    | _ => exact nofun
  | _ => exact nofun

theorem Tidy.edged (h : m.Tidy k t) : ∀ body ∈ m.funcBody?, body.Edged k t := by
  cases m with
  | func f => exact fun body isBody => (h body isBody).edges rfl
  | expr e =>
    cases e with
    | func _ _ b => exact fun body isBody => Option.some.inj isBody ▸ h.edges rfl
    | _ => exact nofun
  | _ => exact nofun

end Node

/-- Whether a source is tidied into what `p` says, next to what it was read as. -/
def SourceFile.tidied? (src : String) (opts : Options) (p : SourceFile → SourceFile → Bool) :
    Option Bool :=
  (SourceFile.parse src).toOption.bind fun f => EStateM.run' (do
    SourceFile.tidy opts
    return p f (← get)) f

/-- Whether a source is formatted into one that reads as `p` says. -/
def SourceFile.formatted? (src : String) (opts : Options) (p : SourceFile → SourceFile → Bool) :
    Option Bool :=
  (SourceFile.parse src).toOption.bind fun f =>
    (format src opts).toOption.bind fun out => (SourceFile.parse out).toOption.map (p f)

namespace SourceFile

variable {src : String} {f : SourceFile} {opts : Options}

/-- The sources that the statements below are about, evaluated in one go: a broken literal in a
literal, a blank line between the definition of an error and its check, the same with a declaration
that becomes the definition, a body with blank lines at both ends, and one that ends with a
declaration in parentheses. -/
theorem samples_evaluated :
    tidied? "package p\nvar x = []T\x7b1, T\x7b2\x7d,\n3\x7d\n" ⟨none, false, none, false, none⟩
      (fun _ f' => decide (∃ m ∈ f'.nodes, m matches .expr (.composite _ _ [_, _, _] _))) =
        some true ∧
    tidied? "package p\nfunc f() \x7b\nerr := g()\n\nif err != nil \x7b\n\x7d\n\x7d\n"
      ⟨none, true, none, false, none⟩
      (fun _ f' => decide (∃ m ∈ f'.nodes, ∃ ss ∈ m.bodies,
        ss.any Stmt.definesErr ∧ ss.any Stmt.checksErr)) = some true ∧
    tidied?
      "package p\n\nfunc f() \x7b\n\tvar err = g()\n\n\tif err != nil \x7b\n\t\x7d\n\x7d\n"
      ⟨none, true, none, false, none⟩
      (fun _ f' => decide (∀ m ∈ f'.nodes, ∀ ss ∈ m.bodies, ss.IsChain fun a b : Stmt =>
        a.definesErr → b.checksErr → f'.lines.line b.pos ≤ f'.lines.line (a.stop - 1) + 1)) =
        some false ∧
    tidied? "package p\nfunc f() \x7b\n\ng()\n\n\x7d\n" ⟨none, false, none, false, none⟩
      (fun _ f' => decide (∃ m ∈ f'.nodes, m.funcBody?.isSome)) = some true ∧
    formatted? "package p\n\nfunc f() \x7b\n\t// doc\n\tvar (\n\n\t\tx = 1\n\n\t)\n\x7d\n"
      ⟨none, false, none, false, none⟩
      (fun _ f' => decide (∀ m ∈ f'.nodes, ∀ body ∈ m.funcBody?,
        body.Tight f'.lines f'.comments)) = some false := by
  decide +kernel

/-! ### Literals -/

/-- Composite literals are laid out. Each of them is either unbroken, with every element on the line
where the one before it ends, or its braces stand apart from its elements and lines are broken
around all elements that are composite. -/
theorem tidy_lays_out_literals (read : SourceFile.parse src = .ok f) :
    ∃ f', (SourceFile.tidy opts).run f = .ok () f' ∧ ∀ ty lbrace elements rbrace,
      .expr (.composite ty lbrace elements rbrace) ∈ f'.nodes →
        Expr.LaidOut f'.lines lbrace rbrace elements := by
  obtain ⟨_, f', run, tidy, -⟩ := tidy_settles opts read
  exact ⟨f', run, fun _ _ _ _ mem => tidy _ mem⟩

/-- A broken literal in which another one begins on the line of the element before it. -/
theorem tidy_lays_out_literals_of_nested :
    ∃ f f', SourceFile.parse "package p\nvar x = []T\x7b1, T\x7b2\x7d,\n3\x7d\n" = .ok f ∧
      (SourceFile.tidy ⟨none, false, none, false, none⟩).run f = .ok () f' ∧
      (∃ m ∈ f'.nodes, m matches .expr (.composite _ _ [_, _, _] _)) ∧
      ∀ ty lbrace elements rbrace, .expr (.composite ty lbrace elements rbrace) ∈ f'.nodes →
        Expr.LaidOut f'.lines lbrace rbrace elements := by
  obtain ⟨f, f', read, run, found⟩ := exists_of_tidied _ _ samples_evaluated.1
  obtain ⟨f'', run', laidOut⟩ := tidy_lays_out_literals read
  cases run.symm.trans run'
  exact ⟨f, f', read, run, of_decide_eq_true found, laidOut⟩

/-! ### Checks of errors -/

/-- With the extra rules, an error is checked no later than on the line below its definition. -/
theorem tidy_joins_err_checks (read : SourceFile.parse src = .ok f) (extra : opts.extra) :
    ∃ f', (SourceFile.tidy opts).run f = .ok () f' ∧
      ∀ m ∈ f'.nodes, ∀ ss ∈ m.bodies, Stmt.ErrsChecked (f.setting opts) f'.lines ss := by
  obtain ⟨_, f', run, tidy, -⟩ := tidy_settles opts read
  exact ⟨f', run, fun m mem => (tidy m mem).errsChecked extra⟩

/-- A blank line between a definition and a check. -/
theorem tidy_joins_err_checks_of_blank :
    ∃ f f', SourceFile.parse
        "package p\nfunc f() \x7b\nerr := g()\n\nif err != nil \x7b\n\x7d\n\x7d\n" = .ok f ∧
      (SourceFile.tidy ⟨none, true, none, false, none⟩).run f = .ok () f' ∧
      (∃ m ∈ f'.nodes, ∃ ss ∈ m.bodies, ss.any Stmt.definesErr ∧ ss.any Stmt.checksErr) ∧
      ∀ m ∈ f'.nodes, ∀ ss ∈ m.bodies,
        Stmt.ErrsChecked (f.setting ⟨none, true, none, false, none⟩) f'.lines ss := by
  obtain ⟨f, f', read, run, found⟩ := exists_of_tidied _ _ samples_evaluated.2.1
  obtain ⟨f'', run', checked⟩ := @tidy_joins_err_checks _ f ⟨none, true, none, false, none⟩ read rfl
  cases run.symm.trans run'
  exact ⟨f, f', read, run, of_decide_eq_true found, checked⟩

/-- Where a declaration becomes a definition of an error, the blank line below it stays. -/
theorem tidy_keeps_err_check_apart :
    ¬ ∀ src f f' opts, opts.rule = none → opts.extra → SourceFile.parse src = .ok f →
      (SourceFile.tidy opts).run f = .ok () f' →
      ∀ m ∈ f'.nodes, ∀ ss ∈ m.bodies, ss.IsChain fun a b => a.definesErr → b.checksErr →
        f'.lines.line b.pos ≤ f'.lines.line (a.stop - 1) + 1 := by
  intro near
  obtain ⟨f, f', read, run, apart⟩ := exists_of_tidied _ _ samples_evaluated.2.2.1
  exact of_decide_eq_false apart (near _ f f' _ rfl rfl read run)

/-! ### Bodies of functions -/

/-- The bodies of functions have no blank lines at their ends, but for those that a declaration of
variables leaves there. -/
theorem tidy_trims_bodies (read : SourceFile.parse src = .ok f) :
    ∃ f', (SourceFile.tidy opts).run f = .ok () f' ∧
      ∀ m ∈ f'.nodes, ∀ body ∈ m.funcBody?, body.Edged (f.setting opts) f'.lines := by
  obtain ⟨_, f', run, tidy, -⟩ := tidy_settles opts read
  exact ⟨f', run, fun m mem => (tidy m mem).edged⟩

/-- A body with blank lines at both ends. -/
theorem tidy_trims_bodies_of_blank :
    ∃ f f', SourceFile.parse "package p\nfunc f() \x7b\n\ng()\n\n\x7d\n" = .ok f ∧
      (SourceFile.tidy ⟨none, false, none, false, none⟩).run f = .ok () f' ∧
      (∃ m ∈ f'.nodes, m.funcBody?.isSome) ∧
      ∀ m ∈ f'.nodes, ∀ body ∈ m.funcBody?,
        body.Edged (f.setting ⟨none, false, none, false, none⟩) f'.lines := by
  obtain ⟨f, f', read, run, found⟩ := exists_of_tidied _ _ samples_evaluated.2.2.2.1
  obtain ⟨f'', run', edged⟩ := tidy_trims_bodies read
  cases run.symm.trans run'
  exact ⟨f, f', read, run, of_decide_eq_true found, edged⟩

end SourceFile

/-- Where a group with a comment in it becomes an assignment, the blank line above its closing
parenthesis stays above the closing brace. -/
theorem format_keeps_blank_edge :
    ¬ ∀ src opts out f, opts.rule = none → format src opts = .ok out →
      SourceFile.parse out = .ok f →
      ∀ m ∈ f.nodes, ∀ body ∈ m.funcBody?, body.Tight f.lines f.comments := by
  intro tight
  obtain ⟨f, out, f', -, formatted, read, blank⟩ :=
    exists_of_formatted _ _ SourceFile.samples_evaluated.2.2.2.2
  exact of_decide_eq_false blank (tight _ _ out f' rfl formatted read)

end GoLayout
