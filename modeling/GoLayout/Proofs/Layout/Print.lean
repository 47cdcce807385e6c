import GoLayout.Grammar.File
import GoLayout.Proofs.Layout.Sink
import GoLayout.Proofs.Token.Lexeme

/-!
Unary operators in print. Of an operator before another operator, the printed text is read as the
same operator again, but for `&` before `&` and before `^`: these two are glued to one token, so a
file with them is printed as a text that cannot be read.
-/

namespace GoLayout

namespace UnaryOp

def all : List UnaryOp := [.plus, .minus, .not, .xor, .deref, .addr, .recv, .tilde]

theorem mem_all (op : UnaryOp) : op ∈ all := by cases op <;> decide

theorem text_eq_cons (op : UnaryOp) :
    ∃ c cs, op.text.toList = c :: cs ∧ Lexeme.isMarkOnly c ∧ c ≠ Lexeme.byteOrderMark := by
  have checked : ∀ op ∈ all, op.text.toList.head?.any fun c =>
      Lexeme.isMarkOnly c && c != Lexeme.byteOrderMark := by decide +kernel
  obtain ⟨c, first, isMark⟩ := (Option.any_eq_true _ _).mp (checked op op.mem_all)
  obtain ⟨cs, parts⟩ := List.head?_eq_some_iff.mp first
  simp only [Bool.and_eq_true, bne_iff_ne] at isMark
  exact ⟨c, cs, parts, isMark⟩

/-- What is printed between an operator and one that it stands before. -/
def gapBefore (op op' : UnaryOp) : Gap :=
  if op = op' ∧ (op = .minus ∨ op = .plus) then .space else .none

/-- The character behind an operator that is printed before another one. -/
def charBehind (op op' : UnaryOp) : Char :=
  ((gapBefore op op').chars ++ op'.text.toList).headD ' '

theorem exists_tail (op op' : UnaryOp) :
    ∃ tail, (gapBefore op op').chars ++ op'.text.toList = charBehind op op' :: tail := by
  obtain ⟨c, cs, text, -⟩ := op'.text_eq_cons
  have nonempty : (gapBefore op op').chars ++ op'.text.toList ≠ [] := by simp [text]
  obtain ⟨d, tail, parts⟩ := List.exists_cons_of_ne_nil nonempty
  refine ⟨tail, ?_⟩
  rw [charBehind, parts]
  rfl

/-- The pieces that an expression with two operators begins with. -/
theorem pieces_prefix (lines : LineTable) (op op' : UnaryOp) (pos pos' : Span) (e : Expr) :
    [⟨.none, op.text, false⟩, ⟨gapBefore op op', op'.text, false⟩] <+:
      Node.pieces lines (.expr (.unary op pos (.unary op' pos' e))) := by
  let front := Layout.token pos op.text .glue ++
    Layout.gap pos'.start (Layout.unarySep op (.unary op' pos' e)) ++
    Layout.token pos' op'.text .glue
  have printed : front.pieces lines [] =
      [⟨.none, op.text, false⟩, ⟨gapBefore op op', op'.text, false⟩] := by
    cases op <;> cases op' <;> rfl
  rw [← printed]
  exact Layout.pieces_prefix lines [] front
    (Layout.gap e.pos (Layout.unarySep op' e) ++ e.layout lines)

theorem exists_text (lines : LineTable) (op op' : UnaryOp) (pos pos' : Span) (e : Expr) :
    ∃ rest, (Node.text lines (.expr (.unary op pos (.unary op' pos' e)))).toList =
      op.text.toList ++ charBehind op op' :: rest := by
  obtain ⟨more, parts⟩ := pieces_prefix lines op op' pos pos' e
  obtain ⟨tail, behind⟩ := exists_tail op op'
  refine ⟨tail ++ Piece.join more, ?_⟩
  rw [Node.toList_text, ← parts]
  change op.text.toList ++ ((gapBefore op op').chars ++ op'.text.toList ++ Piece.join more) = _
  rw [behind]
  rfl

/-- The first lexeme of a text that begins with an operator is a mark. -/
theorem head?_all (op : UnaryOp) (rest : List Char) :
    (Lexeme.all (op.text.toList ++ rest)).head?.map (·.1) =
      (Lexeme.mark? (op.text.toList ++ rest)).map (·.1) := by
  have fits : op.mark.spelling.toList <+: op.text.toList ++ rest := List.prefix_append _ _
  obtain ⟨r, found⟩ := Option.isSome_iff_exists.mp (Lexeme.mark?_isSome fits)
  obtain ⟨c, cs, parts, isMark, noOrderMark⟩ := op.text_eq_cons
  rw [parts, List.cons_append] at found ⊢
  rw [found, Option.map_some, Lexeme.all, if_neg noOrderMark, List.length_cons, Lexeme.readAll,
    Lexeme.read_of_isMarkOnly isMark, found]
  rfl

/-- Where another mark begins with the operator and the character behind it, that mark is just
these. -/
theorem ends_or_goes_on : ∀ op ∈ all, ∀ op' ∈ all,
    if op = .addr ∧ (op' = .addr ∨ op' = .xor) then
      ∃ m ∈ Mark.all, m.spelling.toList = op.mark.spelling.toList ++ [charBehind op op']
    else
      ∀ m ∈ Mark.all, ¬ op.mark.spelling.toList ++ [charBehind op op'] <+: m.spelling.toList := by
  decide +kernel

end UnaryOp

/-- An operator that is printed before another one is read back, unless it is `&` and the other one
`&` or `^`. -/
theorem Expr.read_back_unary_iff (lines : LineTable) (op op' : UnaryOp) (pos pos' : Span)
    (e : Expr) :
    (Lexeme.all (Node.text lines (.expr (.unary op pos (.unary op' pos' e)))).toList).head?.map
        (·.1) = some (.token (.mark op.mark)) ↔
      ¬ (op = .addr ∧ (op' = .addr ∨ op' = .xor)) := by
  obtain ⟨rest, text⟩ := op.exists_text lines op' pos pos' e
  have split := UnaryOp.ends_or_goes_on op op.mem_all op' op'.mem_all
  rw [text, op.head?_all]
  split at split
  · rename_i glued
    obtain ⟨m, -, goesOn⟩ := split
    exact iff_of_false (Lexeme.mark?_of_goes_on goesOn) (not_not_intro glued)
  · rename_i apart
    exact iff_of_true (Lexeme.mark?_of_ends fun m => split m m.mem_all) apart

/-- In `& ^y` the operators are glued to `&^`, which no operand begins with. -/
theorem SourceFile.print_unreadable :
    ¬ ∀ src f, SourceFile.parse src = .ok f → ∃ f', SourceFile.parse f.print = .ok f' := by
  intro readable
  have printed : (SourceFile.parse "package p\n\nvar x = & ^y\n").toOption.map SourceFile.print =
      some "package p\n\nvar x = &^y\n" := by decide +kernel
  have unreadable : (SourceFile.parse "package p\n\nvar x = &^y\n").toOption.isNone := by
    decide +kernel
  cases read : SourceFile.parse "package p\n\nvar x = & ^y\n" with
  | error e => simp [read, Except.toOption] at printed
  | ok f =>
    obtain ⟨f', again⟩ := readable _ f read
    have text : f.print = "package p\n\nvar x = &^y\n" := by
      simpa [read, Except.toOption] using printed
    simp [← text, again, Except.toOption] at unreadable

end GoLayout
