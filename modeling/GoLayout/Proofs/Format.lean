import GoLayout.Proofs.Pattern.Rule
import GoLayout.Proofs.Tidy.File

/-!
What formatting promises. It fails on sources that cannot be read and on rules that are none, and
on nothing else: no edit of the line table is ever out of range. A formatted text need not stay as
it is when it is formatted again.
-/

namespace GoLayout

/-- The file that is tidied: read, with the rule of the options applied, and simplified. -/
theorem SourceFile.over_of_applyRule {src : String} {opts : Options} {f f' : SourceFile}
    (read : SourceFile.parse src = .ok f) (applied : f.applyRule opts = .ok f') :
    (if opts.simplify then f'.simplify opts else f').Over src.utf8ByteSize := by
  have cover := (SourceFile.over_of_parse read).1.applyRule applied
  split
  · exact cover.simplify opts
  · exact cover

theorem SourceFile.applyRule_eq_error_iff {opts : Options} {f : SourceFile} :
    (∃ e, f.applyRule opts = .error e) ↔
      ∃ text, opts.rule = some text ∧ ∃ e, Rule.parse text = .error e := by
  unfold SourceFile.applyRule
  cases opts.rule with
  | none => simp [pure, Except.pure]
  | some text =>
    cases parsed : Rule.parse text <;>
      simp [parsed, Rule.rewrite_eq, bind, Except.bind, pure, Except.pure]

/-- Once a source is read and its rule applied, formatting is tidying and printing. -/
theorem format_eq {src : String} {opts : Options} {f f' : SourceFile}
    (read : SourceFile.parse src = .ok f) (applied : f.applyRule opts = .ok f') :
    format src opts =
      match (SourceFile.tidy opts).run (if opts.simplify then f'.simplify opts else f') with
      | .ok _ f => .ok f.print
      | .error e _ => .error (.lines e) := by
  simp only [format, read, Except.mapError, bind, Except.bind, applied]
  rfl

/-- What a formatted source reads as may be found by evaluation. -/
theorem exists_of_formatted (src : String) (opts : Options) {p : SourceFile → SourceFile → Bool}
    {b : Bool} (result : ((SourceFile.parse src).toOption.bind fun f =>
      (format src opts).toOption.bind fun out => (SourceFile.parse out).toOption.map (p f)) =
        some b) :
    ∃ f out f', SourceFile.parse src = .ok f ∧ format src opts = .ok out ∧
      SourceFile.parse out = .ok f' ∧ p f f' = b := by
  obtain ⟨f, read, result⟩ := Option.bind_eq_some_iff.mp result
  obtain ⟨out, formatted, result⟩ := Option.bind_eq_some_iff.mp result
  obtain ⟨f', read', holds⟩ := Option.map_eq_some_iff.mp result
  have ofOption {ε α : Type} {x : Except ε α} {a : α} (some : x.toOption = some a) : x = .ok a := by
    cases x with
    | error e => nomatch some
    | ok b => exact congrArg Except.ok (Option.some.inj some)
  exact ⟨f, out, f', ofOption read, ofOption formatted, ofOption read', holds⟩

/-- An empty group keeps its neighbours apart once, and they are merged when it is gone. -/
theorem format_not_idempotent :
    ¬ ∀ src opts out, opts.rule = none → format src opts = .ok out → format out opts = .ok out := by
  intro idempotent
  have once : (format "package p\n\nvar a = 1\nvar ()\nvar b = 2\n"
      ⟨none, false, none, false, none⟩).toOption =
      some "package p\n\nvar a = 1\nvar b = 2\n" := by decide +kernel
  have twice : (format "package p\n\nvar a = 1\nvar b = 2\n"
      ⟨none, false, none, false, none⟩).toOption =
      some "package p\n\nvar (\n\ta = 1\n\tb = 2\n)\n" := by decide +kernel
  cases first : format "package p\n\nvar a = 1\nvar ()\nvar b = 2\n"
      ⟨none, false, none, false, none⟩ with
  | error e => simp [first, Except.toOption] at once
  | ok out =>
    have text : out = "package p\n\nvar a = 1\nvar b = 2\n" := by
      simpa [first, Except.toOption] using once
    have same := idempotent _ _ out rfl first
    rw [text] at same
    simp [same, Except.toOption] at twice

/-- Formatting fails exactly where the source cannot be read or the rule is none. Wherever it gets
to tidying, tidying succeeds. -/
theorem format_eq_error_iff (src : String) (opts : Options) :
    ((∃ e, format src opts = .error e) ↔
      (∃ e, SourceFile.parse src = .error e) ∨
        ∃ text, opts.rule = some text ∧ ∃ e, Rule.parse text = .error e) ∧
    ∀ f f', SourceFile.parse src = .ok f → f.applyRule opts = .ok f' →
      ∃ f'', (SourceFile.tidy opts).run (if opts.simplify then f'.simplify opts else f') =
        .ok () f'' := by
  have tidied : ∀ f f', SourceFile.parse src = .ok f → f.applyRule opts = .ok f' →
      ∃ f'', (SourceFile.tidy opts).run (if opts.simplify then f'.simplify opts else f') =
        .ok () f'' := by
    intro f f' read applied
    obtain ⟨_, f'', run, -⟩ :=
      SourceFile.tidy_yields opts (SourceFile.over_of_applyRule read applied)
    exact ⟨f'', run⟩
  refine ⟨?_, tidied⟩
  cases read : SourceFile.parse src with
  | error failure =>
    refine iff_of_true ⟨.unreadable failure, ?_⟩ (.inl ⟨failure, rfl⟩)
    simp [format, read, Except.mapError, bind, Except.bind]
  | ok f =>
    rw [← SourceFile.applyRule_eq_error_iff (f := f)]
    cases applied : f.applyRule opts with
    | error e =>
      refine iff_of_true ⟨.rule e, ?_⟩ (.inr ⟨e, rfl⟩)
      simp [format, read, Except.mapError, bind, Except.bind, applied]
    | ok f' =>
      obtain ⟨f'', run⟩ := tidied f f' read applied
      refine iff_of_false ?_ (by simp)
      simp [format_eq read applied, run]

end GoLayout
