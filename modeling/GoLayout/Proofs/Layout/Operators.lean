import GoLayout.Layout.Length
import GoLayout.Proofs.Pattern.Match
import GoLayout.Pattern.Rule

/-!
Operations: names and literals with binary operators between them. The printed form of an operation
is the row of its tokens, which does not tell how its operators group, and a reader groups them by
precedence. So an operation is read back as it was exactly if it groups by precedence itself. A
rule may put an operation where it does not, and what it makes is then read as something else.
-/

namespace GoLayout

namespace BinaryOp

theorem precedence_pos (op : BinaryOp) : 1 ≤ op.precedence := by cases op <;> decide

theorem ofMark?_mark (op : BinaryOp) : ofMark? op.mark = some op := by cases op <;> rfl

end BinaryOp

namespace Expr

/-- Whether an expression is a name or a literal. -/
def isLeaf : Expr → Bool
  | .ident _ | .literal _ => true
  | _ => false

/-- Names and literals with operators between them. -/
inductive Operation : Expr → Prop where
  | leaf {e : Expr} (h : e.isLeaf) : Operation e
  | binary {left right : Expr} (op : BinaryOp) (opPos : Span) (ofLeft : Operation left)
      (ofRight : Operation right) : Operation (.binary left op opPos right)

instance decidableOperation : (e : Expr) → Decidable e.Operation
  | .ident _ | .literal _ => .isTrue (.leaf rfl)
  | .binary left op opPos right =>
    match decidableOperation left, decidableOperation right with
    | .isTrue ofLeft, .isTrue ofRight => .isTrue (.binary op opPos ofLeft ofRight)
    | .isFalse fails, _ => .isFalse fun
      | .binary _ _ ofLeft _ => fails ofLeft
    | _, .isFalse fails => .isFalse fun
      | .binary _ _ _ ofRight => fails ofRight
  | .func .. | .composite .. | .paren .. | .selector .. | .index .. | .slice .. | .assertion ..
  | .call .. | .unary .. | .keyValue .. | .type .. => .isFalse fun | .leaf h => nomatch h

/-- The tokens of an operation in their order. -/
def row : Expr → List Token
  | .ident name => [⟨.name name.text, name.span⟩]
  | .literal lit => [⟨.literal lit.kind lit.text, lit.span⟩]
  | .binary left op opPos right => left.row ++ ⟨.mark op.mark, opPos⟩ :: right.row
  | _ => []

/-- Whether the operators bind at least as tight as `min` and group by precedence, those of one
precedence to the left. -/
def isGrouped : (min : Nat) → Expr → Bool
  | min, .binary left op _ right =>
    min ≤ op.precedence && left.isGrouped op.precedence && right.isGrouped (op.precedence + 1)
  | _, _ => true

/-- The operators on the way from an operation to its first operand. -/
def links : Expr → Nat
  | .binary left _ _ _ => left.links + 1
  | _ => 0

section Leaf

variable {e : Expr} (h : e.isLeaf)

include h

theorem length_row_leaf : e.row.length = 1 := by cases e <;> first | rfl | nomatch h

theorem isGrouped_leaf (min : Nat) : e.isGrouped min := by cases e <;> first | rfl | nomatch h

theorem links_leaf : e.links = 0 := by cases e <;> first | rfl | nomatch h

end Leaf

theorem isGrouped_binary {min : Nat} {left right : Expr} {op : BinaryOp} {opPos : Span} :
    (binary left op opPos right).isGrouped min ↔ min ≤ op.precedence ∧
      left.isGrouped op.precedence ∧ right.isGrouped (op.precedence + 1) := by
  rw [isGrouped, Bool.and_eq_true, Bool.and_eq_true, decide_eq_true_iff, and_assoc]

theorem length_row_binary {left right : Expr} {op : BinaryOp} {opPos : Span} :
    (binary left op opPos right).row.length = left.row.length + right.row.length + 1 := by
  rw [row, List.length_append, List.length_cons, Nat.add_assoc]

theorem Operation.links_lt_row {e : Expr} (h : e.Operation) : e.links < e.row.length := by
  induction h with
  | leaf h => rw [links_leaf h, length_row_leaf h]; exact Nat.one_pos
  | binary op opPos _ _ ih _ =>
    rw [links, length_row_binary]
    omega

/-! ### Grouping anew -/

/-- The expression with an operand behind it, as the two group when they are read. -/
def attach : Expr → BinaryOp → Span → Expr → Expr
  | .binary left op' opPos' right, op, opPos, operand =>
    if op'.precedence < op.precedence then
      .binary left op' opPos' (right.attach op opPos operand)
    else .binary (.binary left op' opPos' right) op opPos operand
  | e, op, opPos, operand => .binary e op opPos operand

section Attach

variable {op : BinaryOp} {opPos : Span} {e operand : Expr}

theorem attach_leaf (h : e.isLeaf) : e.attach op opPos operand = .binary e op opPos operand := by
  cases e <;> first | rfl | nomatch h

theorem Operation.attach (h : e.Operation) (ofOperand : operand.Operation) :
    (e.attach op opPos operand).Operation := by
  induction h with
  | leaf h => rw [attach_leaf h]; exact .binary _ _ (.leaf h) ofOperand
  | binary op' opPos' ofLeft ofRight _ ih =>
    rw [Expr.attach]
    split
    · exact .binary _ _ ofLeft ih
    · exact .binary _ _ (.binary _ _ ofLeft ofRight) ofOperand

theorem Operation.row_attach (h : e.Operation) :
    (e.attach op opPos operand).row = e.row ++ ⟨.mark op.mark, opPos⟩ :: operand.row := by
  induction h with
  | leaf h => rw [attach_leaf h, row]
  | binary op' opPos' _ _ _ ih =>
    rw [Expr.attach]
    split
    · rw [row, ih, row, List.append_assoc, List.cons_append]
    · rfl

theorem Operation.isGrouped_attach {min : Nat} (h : e.Operation) (grouped : e.isGrouped min)
    (least : min ≤ op.precedence) (leaf : operand.isLeaf) :
    (e.attach op opPos operand).isGrouped min := by
  induction h generalizing min with
  | leaf h =>
    rw [attach_leaf h]
    exact isGrouped_binary.mpr ⟨least, isGrouped_leaf h _, isGrouped_leaf leaf _⟩
  | binary op' opPos' _ _ _ ih =>
    obtain ⟨least', ofLeft, ofRight⟩ := isGrouped_binary.mp grouped
    rw [Expr.attach]
    split
    · rename_i tighter
      exact isGrouped_binary.mpr ⟨least', ofLeft, ih ofRight tighter⟩
    · rename_i looser
      refine isGrouped_binary.mpr ⟨least, isGrouped_binary.mpr ?_, isGrouped_leaf leaf _⟩
      exact ⟨Nat.not_lt.mp looser, ofLeft, ofRight⟩

end Attach

/-- What stands in the row of an operation can be put behind a grouped one. -/
theorem Operation.exists_grouped_append {front e : Expr} (ofFront : front.Operation)
    (grouped : front.isGrouped 1) (h : e.Operation) (op : BinaryOp) (opPos : Span) :
    ∃ e' : Expr, e'.Operation ∧ e'.isGrouped 1 ∧
      e'.row = front.row ++ ⟨.mark op.mark, opPos⟩ :: e.row := by
  induction h generalizing front op opPos with
  | @leaf e h =>
    exact ⟨front.attach op opPos e, ofFront.attach (.leaf h),
      ofFront.isGrouped_attach grouped op.precedence_pos h, ofFront.row_attach⟩
  | binary op' opPos' _ _ ihLeft ihRight =>
    obtain ⟨left, ofLeft, groupedLeft, rowLeft⟩ := ihLeft ofFront grouped op opPos
    obtain ⟨e', ofAll, groupedAll, rowAll⟩ := ihRight ofLeft groupedLeft op' opPos'
    refine ⟨e', ofAll, groupedAll, ?_⟩
    rw [rowAll, rowLeft, row, List.append_assoc, List.cons_append]

/-- Every row of operands and operators is that of a grouped operation. -/
theorem Operation.exists_grouped {e : Expr} (h : e.Operation) :
    ∃ e' : Expr, e'.Operation ∧ e'.isGrouped 1 ∧ e'.row = e.row := by
  induction h with
  | @leaf e h => exact ⟨e, .leaf h, isGrouped_leaf h 1, rfl⟩
  | binary op opPos _ ofRight ih _ =>
    obtain ⟨left, ofLeft, groupedLeft, rowLeft⟩ := ih
    obtain ⟨e', ofAll, groupedAll, rowAll⟩ :=
      ofLeft.exists_grouped_append groupedLeft ofRight op opPos
    exact ⟨e', ofAll, groupedAll, by rw [rowAll, rowLeft, row]⟩

end Expr

namespace Grammar

/-! ### Reading a row -/

/-- The cursor before some tokens. -/
def Cursor.before (c : Cursor) : List Attached → Cursor
  | [] => c
  | t :: ts => ⟨t, ts ++ c.current :: c.rest⟩

theorem Cursor.before_append (c : Cursor) (front behind : List Attached) :
    c.before (front ++ behind) = (c.before behind).before front := by
  cases front with
  | nil => rfl
  | cons t ts => cases behind <;> simp [before]

theorem Cursor.next_before (c : Cursor) (t : Attached) (ts : List Attached) :
    (c.before (t :: ts)).next = c.before ts := by
  cases ts <;> rfl

/-- What neither a suffix begins with nor an operator that binds at least as tight as `min`. -/
structure Stops (min : Nat) (k : TokenKind) : Prop where
  noSuffix : k ∉ [.mark .dot, .mark .lbrack, .mark .lparen, .mark .lbrace]
  looser : ∀ m op, k = .mark m → BinaryOp.ofMark? m = some op → op.precedence < min

theorem Stops.mono {min min' : Nat} {k : TokenKind} (h : Stops min k) (le : min ≤ min') :
    Stops min' k :=
  ⟨h.noSuffix, fun m op mark isOp => Nat.lt_of_lt_of_le (h.looser m op mark isOp) le⟩

theorem stops_operator (op : BinaryOp) : Stops (op.precedence + 1) (.mark op.mark) := by
  refine ⟨by cases op <;> decide, ?_⟩
  rintro _ op' ⟨⟩ isOp
  rw [op.ofMark?_mark] at isOp
  cases isOp
  exact Nat.lt_succ_self _

variable {g : Readers} {level : Level} {c : Cursor}

theorem peek_bind_apply {α : Type} (f : TokenKind → Reader α) :
    (peek >>= f) c level = f c.current.kind c level := rfl

section Stops

variable {min : Nat} (stops : Stops min c.current.kind)

include stops

theorem suffix?_stop {x : Expr} : suffix? g x c level = .ok ((none, c), level) := by
  obtain ⟨⟨⟨kind, span⟩, lead, trail⟩, rest⟩ := c
  have noSuffix := stops.noSuffix
  cases kind with
  | mark m => cases m <;> first | rfl | simp at noSuffix
  | _ => rfl

theorem suffixes_stop {x : Expr} (rounds : 0 < g.rounds) : suffixes g x c level = .ok ((x, c), level) := by
  obtain ⟨n, rounds⟩ := Nat.exists_eq_add_of_lt rounds
  rw [suffixes, rounds]
  change Except.bind (suffix? g x c level) _ = _
  rw [suffix?_stop stops]
  rfl

/-- A name or a literal is an operand of its own. -/
theorem unaryRule_leaf {e : Expr} {t : Attached} (rounds : 0 < g.rounds) (leaf : e.isLeaf)
    (row : [t.toToken] = e.row) : unaryRule g (c.before [t]) level = .ok ((e, c), level) := by
  obtain ⟨⟨kind, span⟩, lead, trail⟩ := t
  rw [← suffixes_stop stops rounds]
  cases e with
  | ident name => cases row; rfl
  | literal lit => cases row; rfl
  | _ => nomatch leaf

omit stops in
theorem nextOperand?_operator {left : Expr} {m : Mark} {op : BinaryOp}
    (isMark : c.current.kind = .mark m) (isOp : BinaryOp.ofMark? m = some op) :
    nextOperand? g min left c level =
      (if op.precedence < min then return none else do
        let opPos ← step
        return some (.binary left op opPos (← g.read (.binary (op.precedence + 1)))) :
        Reader (Option Expr)) c level := by
  rw [nextOperand?, peek_bind_apply, isMark]
  dsimp only
  rw [isOp]

/-- An expression ends at an operator that binds too loosely, or at something else. -/
theorem nextOperand?_stop {left : Expr} : nextOperand? g min left c level = .ok ((none, c), level) := by
  cases kind : c.current.kind with
  | mark m =>
    cases isOp : BinaryOp.ofMark? m with
    | none =>
      rw [nextOperand?, peek_bind_apply, kind]
      dsimp only
      rw [isOp]
      rfl
    | some op =>
      rw [nextOperand?_operator kind isOp, if_pos (stops.looser m op kind isOp)]
      rfl
  | _ =>
    rw [nextOperand?, peek_bind_apply, kind]
    rfl

end Stops

/-- Behind an operator that binds tight enough, the operand on its right is read. -/
theorem nextOperand?_before {min : Nat} {left right : Expr} {op : BinaryOp} {t : Attached}
    {opPos : Span} {behind : List Attached} (isOp : t.toToken = ⟨.mark op.mark, opPos⟩)
    (least : min ≤ op.precedence)
    (read : g.read (.binary (op.precedence + 1)) (c.before behind) level = .ok ((right, c), level)) :
    nextOperand? g min left (c.before (t :: behind)) level =
      .ok ((some (.binary left op opPos right), c), level) := by
  obtain ⟨⟨kind, span⟩, lead, trail⟩ := t
  cases isOp
  rw [nextOperand?_operator rfl op.ofMark?_mark, if_neg (Nat.not_lt.mpr least)]
  change Except.bind (g.read (.binary (op.precedence + 1)) (Cursor.next _) level) _ = _
  rw [Cursor.next_before, read]
  rfl

/-- Readers of the given depth go along the row of an expression, its first operand first. -/
def GoesAlong (depth : Nat) (e : Expr) : Prop :=
  ∀ (rounds : Nat) (level : Level) ⦃min m : Nat⦄ ⦃c : Cursor⦄ ⦃front : List Attached⦄,
    front.map (·.toToken) = e.row → e.isGrouped m → min ≤ m → Stops (m + 1) c.current.kind →
    (readWithin depth .unary >>= grow (nextOperand? ⟨depth, readWithin depth⟩ min)
        (rounds + e.links)) (c.before front) level =
      grow (nextOperand? ⟨depth, readWithin depth⟩ min) rounds e c level

/-- Where the readers go along a row, it is read up to something that ends it. -/
theorem GoesAlong.read {e : Expr} {depth min : Nat} {front : List Attached}
    (h : GoesAlong depth e) (room : e.links < depth) (row : front.map (·.toToken) = e.row)
    (grouped : e.isGrouped min) (stops : Stops min c.current.kind) :
    readWithin (depth + 1) (.binary min) (c.before front) level = .ok ((e, c), level) := by
  obtain ⟨rounds, parts⟩ : ∃ rounds, depth = rounds + 1 + e.links :=
    ⟨depth - e.links - 1, by omega⟩
  have along := h (rounds + 1) level row grouped (Nat.le_refl min) (stops.mono (Nat.le_succ min))
  rw [← parts] at along
  refine along.trans ?_
  change Except.bind (nextOperand? _ min e c level) _ = _
  rw [nextOperand?_stop stops]
  rfl

theorem goesAlong_leaf {e : Expr} {depth : Nat} (leaf : e.isLeaf) (room : 1 < depth) :
    GoesAlong depth e := by
  intro rounds level min m c front row grouped least stops
  have single : front.length = 1 := by
    rw [← Expr.length_row_leaf leaf, ← row, List.length_map]
  obtain ⟨t, rfl⟩ := List.length_eq_one_iff.mp single
  obtain ⟨depth, rfl⟩ : ∃ d, depth = d + 1 := ⟨depth - 1, by omega⟩
  have read : readWithin (depth + 1) .unary (c.before [t]) level = .ok ((e, c), level) :=
    unaryRule_leaf stops (Nat.lt_of_succ_lt_succ room) leaf row
  change Except.bind (readWithin (depth + 1) .unary (c.before [t]) level) _ = _
  rw [read, Expr.links_leaf leaf]
  rfl

/-- The left side of an operation is what the readers have gone along when they come to its
operator, and the right side is what they read behind it. -/
theorem goesAlong {e : Expr} (h : e.Operation) {depth : Nat} (room : e.row.length < depth) :
    GoesAlong depth e := by
  induction h generalizing depth with
  | leaf h => exact goesAlong_leaf h (Expr.length_row_leaf h ▸ room)
  | @binary left right op opPos ofLeft ofRight ihLeft ihRight =>
    intro rounds level min m c front row grouped least stops
    obtain ⟨leastOp, groupedLeft, groupedRight⟩ := Expr.isGrouped_binary.mp grouped
    obtain ⟨frontLeft, behind, rfl, rowLeft, rowBehind⟩ := List.map_eq_append_iff.mp row
    obtain ⟨t, frontRight, rfl, isOp, rowRight⟩ := List.map_eq_cons_iff.mp rowBehind
    have linksLeft := ofLeft.links_lt_row
    have linksRight := ofRight.links_lt_row
    rw [Expr.length_row_binary] at room
    have readRight : readWithin depth (.binary (op.precedence + 1)) (c.before frontRight) level =
        .ok ((right, c), level) := by
      obtain ⟨depth, rfl⟩ : ∃ d, depth = d + 1 := ⟨depth - 1, by omega⟩
      have along := ihRight (by omega : right.row.length < depth)
      exact along.read (by omega) rowRight groupedRight (stops.mono (Nat.succ_le_succ leastOp))
    have stopsLeft : Stops (op.precedence + 1) (c.before (t :: frontRight)).current.kind := by
      change Stops _ t.toToken.kind
      rw [isOp]
      exact stops_operator op
    have along := ihLeft (by omega : left.row.length < depth) (rounds + 1) level rowLeft groupedLeft
      (Nat.le_trans least leastOp) stopsLeft
    have rounds_eq : rounds + (Expr.binary left op opPos right).links =
        rounds + 1 + left.links := by
      rw [Expr.links]
      omega
    rw [Cursor.before_append, rounds_eq, along]
    change Except.bind (nextOperand? _ min left _ level) _ = _
    rw [nextOperand?_before isOp (Nat.le_trans least leastOp) readRight]
    rfl

/-- A row is read as the grouped operation that has it. -/
theorem expr_row {e : Expr} (h : e.Operation) (grouped : e.isGrouped 1) {tokens : Nat}
    {front : List Attached} (row : front.map (·.toToken) = e.row) (room : front.length ≤ tokens)
    (stops : Stops 1 c.current.kind) (level : Level) :
    (readers tokens).expr (c.before front) level = .ok ((e, c), level) := by
  have length : e.row.length = front.length := by rw [← row, List.length_map]
  have links := h.links_lt_row
  have along : GoesAlong (8 * tokens + 7) e := goesAlong h (by omega)
  exact along.read (by omega) row grouped stops

end Grammar

/-! ### Printing a row -/

def Token.text (t : Token) : String :=
  match t.kind with
  | .name text | .literal _ text => text
  | .keyword k => k.spelling
  | .mark m => m.spelling
  | .eof | .invalid => ""

namespace Printer

/-- Printing with no comments left adds the given texts. -/
def Adds (lines : LineTable) (l : Layout) (texts : List String) : Prop :=
  ∀ p : Printer (List Piece), p.pending = [] →
    (print lines l p).pending = [] ∧
      (print lines l p).out.map (·.text) = texts.reverse ++ p.out.map (·.text)

variable {lines : LineTable}

theorem adds_token (span : Span) (text : String) (sep : Sep) :
    Adds lines (.token span text sep) [text] := by
  rintro ⟨out, _, _, _, _, _, _, _⟩ ⟨⟩
  exact ⟨rfl, rfl⟩

theorem adds_gap (pos : Nat) (sep : Sep) : Adds lines (.gap pos sep) [] := by
  rintro ⟨out, _, _, _, _, _, _, _⟩ ⟨⟩
  exact ⟨rfl, rfl⟩

theorem Adds.append {a b : Layout} {texts texts' : List String} (ha : Adds lines a texts)
    (hb : Adds lines b texts') : Adds lines (a ++ b) (texts ++ texts') := by
  intro p none
  obtain ⟨none', printed⟩ := ha p none
  obtain ⟨none'', printed'⟩ := hb _ none'
  refine ⟨none'', ?_⟩
  rw [List.reverse_append, List.append_assoc, ← printed]
  exact printed'

theorem adds_indentIf (asked : Bool) : Adds lines (Layout.indentIf asked) [] := by
  cases asked with
  | true | false => exact fun p none => ⟨none, rfl⟩

theorem adds_dedentIf (asked : Bool) : Adds lines (Layout.dedentIf asked) [] := by
  cases asked with
  | true | false => exact fun p none => ⟨none, rfl⟩

end Printer

/-- An operation is printed as the texts of its row. -/
theorem Expr.Operation.adds_layout {e : Expr} (h : e.Operation) (lines : LineTable) :
    Printer.Adds lines (e.layout lines) (e.row.map Token.text) := by
  induction h with
  | @leaf e h =>
    cases e with
    | ident name => exact Printer.adds_token _ _ _
    | literal lit => exact Printer.adds_token _ _ _
    | _ => nomatch h
  | @binary left right op opPos _ _ ihLeft ihRight =>
    have front := (ihLeft.append (Printer.adds_token opPos op.text .space)).append
      (Printer.adds_indentIf (lines.lastLine opPos < lines.line right.pos))
    have printed := ((front.append (Printer.adds_gap right.pos .lineOrSpace)).append ihRight).append
      (Printer.adds_dedentIf (lines.lastLine opPos < lines.line right.pos))
    have texts : (Expr.binary left op opPos right).row.map Token.text =
        left.row.map Token.text ++ [op.text] ++ [] ++ [] ++ right.row.map Token.text ++ [] := by
      simp [row, Token.text, BinaryOp.text]
    rw [texts]
    exact printed

theorem Expr.Operation.pieces_texts {e : Expr} (h : e.Operation) (lines : LineTable) :
    (Node.pieces lines (.expr e)).map (·.text) = e.row.map Token.text := by
  obtain ⟨-, printed⟩ := h.adds_layout lines (.start [] []) rfl
  have trace : ((e.layout lines).emit lines [] ([] : List Piece)).map (·.text) =
      (e.row.map Token.text).reverse := printed.trans (List.append_nil _)
  rw [Node.pieces, Node.layout, Layout.pieces, List.map_reverse, trace, List.reverse_reverse]

/-! ### Rewriting an operation -/

/-- All that names stand for are operations. -/
def Bindings.Operations (b : Bindings) : Prop := ∀ bound ∈ b, bound.2.Operation

theorem Bindings.Operations.lookup {b : Bindings} (h : b.Operations) {name : String} {e : Expr}
    (found : b.lookup name = some e) : e.Operation := by
  obtain ⟨before, behind, rfl, -⟩ := List.lookup_eq_some_iff.mp found
  exact h (name, e) (by simp)

namespace Pattern

variable {p e : Expr} {b b' : Bindings}

theorem operations_of_check {t : Bool} (run : Comparison.check t b = some ((), b'))
    (all : b.Operations) : b'.Operations := by
  cases t with
  | true =>
    cases run
    exact all
  | false => nomatch run

/-- A name that meets an operation is bound to it, if to anything. -/
theorem operations_of_ident (h : e.Operation) {name : Ident}
    (run : (Expr.ident name).unify wildcards e b = some ((), b')) (all : b.Operations) :
    b'.Operations := by
  by_cases wild : isWildcard name = true
  · rw [unify_wildcard wild] at run
    cases found : b.lookup name.text with
    | some bound =>
      rw [meet_bound found] at run
      exact operations_of_check run all
    | none =>
      rw [meet_free found] at run
      cases run
      exact List.forall_mem_append.mpr ⟨all, by simpa using h⟩
  · rw [unify_name wild] at run
    cases e with
    | ident name' => exact operations_of_check run all
    | _ => nomatch run

/-- A match in an operation binds its operands and what they are made of, which are operations. -/
theorem operations_of_unify (h : e.Operation) (run : p.unify wildcards e b = some ((), b'))
    (all : b.Operations) : b'.Operations := by
  induction h generalizing p b b' with
  | @leaf e h =>
    cases p with
    | ident name => exact operations_of_ident (.leaf h) run all
    | literal lit =>
      cases e with
      | literal lit' => exact operations_of_check run all
      | ident name => nomatch run
      | _ => nomatch h
    | _ =>
      cases e with
      | literal lit' => nomatch run
      | ident name => nomatch run
      | _ => nomatch h
  | @binary left right op opPos ofLeft ofRight ihLeft ihRight =>
    cases p with
    | ident name => exact operations_of_ident (.binary op opPos ofLeft ofRight) run all
    | binary pLeft pOp pOpPos pRight =>
      obtain ⟨⟨⟨⟩, b₁⟩, first, run⟩ := Option.bind_eq_some_iff.mp run
      obtain ⟨⟨⟨⟩, b₂⟩, same, second⟩ := Option.bind_eq_some_iff.mp run
      exact ihRight second (operations_of_check same (ihLeft first all))
    | _ => nomatch run

end Pattern

/-- A copy of an operation in which names are filled in by operations is one. -/
theorem Expr.Operation.copy {e : Expr} (h : e.Operation) {c : Copying}
    (filled : ∀ name e', c.fill name = some e' → e'.Operation) : (e.copy c).Operation := by
  induction h with
  | @leaf e h =>
    cases e with
    | ident name =>
      rw [Expr.copy]
      cases found : c.fill name with
      | some e' => exact filled name e' found
      | none => exact .leaf rfl
    | literal lit => exact .leaf rfl
    | _ => nomatch h
  | binary op opPos _ _ ihLeft ihRight => exact .binary op _ ihLeft ihRight

namespace Rule

variable {r : Rule} (ofOperators : r.replacement.expr.Operation)

include ofOperators

theorem operation_replace? {e e' : Expr} (h : e.Operation) (replaced : r.replace? e = some e') :
    e'.Operation := by
  obtain ⟨bindings, found, rfl⟩ := Option.map_eq_some_iff.mp replaced
  have all : bindings.Operations :=
    Pattern.operations_of_unify h (Pattern.match?_eq_some.mp found) nofun
  refine ofOperators.copy fun name e' filled => ?_
  dsimp only at filled
  split at filled
  · obtain ⟨bound, isBound, rfl⟩ := Option.map_eq_some_iff.mp filled
    exact (all.lookup isBound).copy nofun
  · nomatch filled

/-- On leaving an operation, the rule leaves an operation. -/
theorem operation_leave {e : Expr} (h : e.Operation) (count : Nat) :
    ((match r.replace? e with
      | some e => do
        modify (· + 1)
        return e
      | none => return e : StateM Nat Expr) count).1.Operation := by
  cases replaced : r.replace? e with
  | some e' => exact operation_replace? ofOperators h replaced
  | none => exact h

theorem operation_visit {e : Expr} (h : e.Operation) (count : Nat) :
    ((e.visit r.visitor).run count).1.Operation := by
  induction h generalizing count with
  | @leaf e h =>
    cases e with
    | ident name => exact operation_leave ofOperators (.leaf h) count
    | literal lit => exact operation_leave ofOperators (.leaf h) count
    | _ => nomatch h
  | binary op opPos _ _ ihLeft ihRight =>
    exact operation_leave ofOperators (.binary op opPos (ihLeft count) (ihRight _)) _

end Rule

/-- An expression with a rule applied everywhere in it, if there is one. -/
def Expr.rewritten (e : Expr) : Option Rule → Expr
  | some r => ((e.visit r.visitor).run 0).1
  | none => e

/-- The printed texts of an operation are those of its row, and a row is read as a grouped operation
that has it. That one is the operation itself only if it is grouped. It is so too for what becomes
of an operation under a rule whose replacement is an operation. -/
theorem Expr.operation_read_back {e₀ : Expr} (h : e₀.Operation) (rule : Option Rule)
    (ofOperators : ∀ r ∈ rule, r.replacement.expr.Operation) (lines : LineTable)
    (front : List Attached) (row : front.map (·.toToken) = (e₀.rewritten rule).row) {tokens : Nat}
    (room : front.length ≤ tokens) {c : Grammar.Cursor} (stops : Grammar.Stops 1 c.current.kind)
    (level : Grammar.Level) :
    let e := e₀.rewritten rule
    (Node.pieces lines (.expr e)).map (·.text) = front.map (·.toToken.text) ∧
      ∃ e' : Expr, (Grammar.readers tokens).expr (c.before front) level = .ok ((e', c), level) ∧
        e'.row = e.row ∧ e'.isGrouped 1 ∧ (e' = e ↔ e.isGrouped 1) := by
  have h : (e₀.rewritten rule).Operation := by
    cases rule with
    | some r => exact r.operation_visit (ofOperators r rfl) h 0
    | none => exact h
  generalize e₀.rewritten rule = e at h row
  constructor
  · rw [h.pieces_texts, ← row, List.map_map]
    rfl
  · obtain ⟨e', ofAll, grouped, same⟩ := h.exists_grouped
    have read := Grammar.expr_row ofAll grouped (row.trans same.symm) room stops level
    refine ⟨e', read, same, grouped, ?_, ?_⟩
    · rintro rfl
      exact grouped
    · intro own
      have again := Grammar.expr_row h own row room stops level
      rw [read] at again
      cases again
      rfl

/-- A sum that a rule puts on the right of `2 *` is not read back there. -/
theorem Expr.operation_read_back_of_product :
    ∃ r e', Rule.parse "sum -> q + 1" = .ok r ∧
      (Grammar.readers 5).expr
        ⟨⟨⟨.literal .int "2", ⟨0, 1⟩⟩, none, none⟩,
          [⟨⟨.mark .star, ⟨2, 3⟩⟩, none, none⟩, ⟨⟨.name "q", ⟨4, 4⟩⟩, none, none⟩,
          ⟨⟨.mark .plus, ⟨4, 4⟩⟩, none, none⟩, ⟨⟨.literal .int "1", ⟨4, 4⟩⟩, none, none⟩,
          ⟨⟨.eof, .point 4⟩, none, none⟩]⟩ 0 =
        .ok ((e', ⟨⟨⟨.eof, .point 4⟩, none, none⟩, []⟩), 0) ∧
      e' ≠ (Expr.binary (.literal ⟨.int, "2", ⟨0, 1⟩⟩) .mul ⟨2, 3⟩
        (.ident ⟨"sum", ⟨4, 7⟩⟩)).rewritten (some r) := by
  generalize ruleText : Rule.parse "sum -> q + 1" = ruled
  have rewritten : (ruled.toOption.map fun r =>
      let e := Expr.rewritten (.binary (.literal ⟨.int, "2", ⟨0, 1⟩⟩) .mul ⟨2, 3⟩
        (.ident ⟨"sum", ⟨4, 7⟩⟩)) (some r)
      (decide r.replacement.expr.Operation, e.row, e.isGrouped 1)) =
      some (true, [⟨.literal .int "2", ⟨0, 1⟩⟩, ⟨.mark .star, ⟨2, 3⟩⟩, ⟨.name "q", ⟨4, 4⟩⟩,
        ⟨.mark .plus, ⟨4, 4⟩⟩, ⟨.literal .int "1", ⟨4, 4⟩⟩], false) := by
    rw [← ruleText]
    decide +kernel
  cases ruled with
  | error e => nomatch rewritten
  | ok r =>
    simp only [Except.toOption, Option.map_some, Option.some.injEq, Prod.mk.injEq,
      decide_eq_true_eq] at rewritten
    obtain ⟨ofOperators, row, notGrouped⟩ := rewritten
    obtain ⟨-, e', read, -, -, own⟩ := operation_read_back
      (.binary .mul ⟨2, 3⟩ (.leaf (e := .literal ⟨.int, "2", ⟨0, 1⟩⟩) rfl)
        (.leaf (e := .ident ⟨"sum", ⟨4, 7⟩⟩) rfl))
      (some r) (fun _ same => Option.some.inj same ▸ ofOperators) (.ofSource "")
      [⟨⟨.literal .int "2", ⟨0, 1⟩⟩, none, none⟩, ⟨⟨.mark .star, ⟨2, 3⟩⟩, none, none⟩,
        ⟨⟨.name "q", ⟨4, 4⟩⟩, none, none⟩, ⟨⟨.mark .plus, ⟨4, 4⟩⟩, none, none⟩,
        ⟨⟨.literal .int "1", ⟨4, 4⟩⟩, none, none⟩]
      row.symm (Nat.le_refl 5) (c := ⟨⟨⟨.eof, .point 4⟩, none, none⟩, []⟩) ⟨by decide, nofun⟩ 0
    refine ⟨r, e', rfl, read, fun same => ?_⟩
    exact absurd ((own.mp same).symm.trans notGrouped) (by decide)

/-- What a file declares, without the places of its tokens and the links to its comments. -/
def SourceFile.shape (f : SourceFile) : String × List Decl :=
  (f.name.text, f.decls.map (·.restamp 0))

/-- A call whose replacement is a sum is the right side of a product; the printed product has the
sum's first operand as its right side. -/
theorem Rule.applyAll_not_read_back :
    ¬ ∀ src f text r, SourceFile.parse src = .ok f →
      (∃ f', SourceFile.parse f.print = .ok f' ∧ f'.shape = f.shape) → Rule.parse text = .ok r →
      ∃ f', SourceFile.parse (r.applyAll f).1.print = .ok f' ∧
        f'.shape = (r.applyAll f).1.shape := by
  intro readsBack
  generalize source : SourceFile.parse "package p\n\nvar x = 2 * f(q)\n" = parsed
  generalize ruleText : Rule.parse "f(a) -> a + 1" = ruled
  have printed : parsed.toOption.map SourceFile.print = some "package p\n\nvar x = 2 * f(q)\n" := by
    rw [← source]
    decide +kernel
  have rewritten : (parsed.toOption.bind fun f => ruled.toOption.bind fun r =>
      (SourceFile.parse (r.applyAll f).1.print).toOption.map fun f' =>
        ((f'.shape.2.zip (r.applyAll f).1.shape.2).all fun (a, b) => a.alike b,
          ((r.applyAll f).1.shape.2.zip (r.applyAll f).1.shape.2).all fun (a, b) => a.alike b)) =
      some (false, true) := by
    rw [← source, ← ruleText]
    decide +kernel
  cases parsed with
  | error e => nomatch printed
  | ok f =>
    cases ruled with
    | error e => nomatch rewritten
    | ok r =>
      have text : f.print = "package p\n\nvar x = 2 * f(q)\n" := Option.some.inj printed
      obtain ⟨f', again, same⟩ :=
        readsBack _ f _ r source ⟨f, text ▸ source, rfl⟩ ruleText
      simp only [Except.toOption, Option.bind_some, again, Option.map_some, same] at rewritten
      have differ := Prod.mk.inj (Option.some.inj rewritten)
      exact absurd (differ.1.symm.trans differ.2) (by decide)

end GoLayout
