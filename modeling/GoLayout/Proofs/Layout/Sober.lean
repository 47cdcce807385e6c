import GoLayout.Proofs.Layout.Comments
import GoLayout.Proofs.Layout.Indent
import GoLayout.Proofs.Spacing.Layout

/-!
The layout of every node is sober: its tokens are keywords, marks and the words of the node, and no
separation in it asks for more than one blank line. So the print of a file has canonical white
space, whatever its tree and its line table.
-/

namespace GoLayout

variable {P : String → Prop} {wide : Bool} {lines : LineTable}

/-- `P` holds of the text of every word. -/
def Word.All (P : String → Prop) (words : List Word) : Prop := ∀ w ∈ words, P w.text

namespace Word.All

theorem head {w : Word} {words : List Word} (h : Word.All P (w :: words)) : P w.text :=
  h w (.head words)

theorem tail {w : Word} {words : List Word} (h : Word.All P (w :: words)) : Word.All P words :=
  fun w' mem => h w' (.tail w mem)

theorem left {a b : List Word} (h : Word.All P (a ++ b)) : Word.All P a :=
  fun w mem => h w (List.mem_append_left b mem)

theorem right {a b : List Word} (h : Word.All P (a ++ b)) : Word.All P b :=
  fun w mem => h w (List.mem_append_right a mem)

theorem idents {names : List Ident} (h : Word.All P (names.map Ident.word)) :
    ∀ name ∈ names, P name.text :=
  fun _ mem => h _ (List.mem_map_of_mem mem)

end Word.All

theorem Sep.isModest_ite {c : Prop} [Decidable c] {a b : Sep}
    (ofA : (a.isModest || wide) = true) (ofB : (b.isModest || wide) = true) :
    ((if c then a else b).isModest || wide) = true := by
  split
  · exact ofA
  · exact ofB

/-- Items of which each has a sober layout. -/
def Item.AllSober (P : String → Prop) (wide : Bool) (items : List Item) : Prop :=
  ∀ i ∈ items, i.layout.Sober P wide 0 0

theorem Item.AllSober.tail {i : Item} {items : List Item}
    (h : Item.AllSober P wide (i :: items)) : Item.AllSober P wide items :=
  fun i' mem => h i' (.tail i mem)

namespace Layout

/-! ### Levels -/

/-- A sober layout may start further to the right. -/
theorem Sober.shift {l : Layout} {d e : Nat} (h : l.Sober P wide d e) (k : Nat) :
    l.Sober P wide (k + d) (k + e) := by
  induction h with
  | nil => exact .nil
  | token spelled modest => exact .token spelled modest
  | extra spelled modest => exact .extra spelled modest
  | gap modest => exact .gap modest
  | comments modest => exact .comments modest
  | lastComma => exact .lastComma
  | append left right ihLeft ihRight => exact .append ihLeft ihRight
  | indent => exact .indent
  | dedent => exact .dedent
  | outdent inner => exact .outdent inner

/-- What leaves the level as it is does so at every level. -/
theorem Sober.within {l : Layout} (h : l.Sober P wide 0 0) (level : Nat) :
    l.Sober P wide level level :=
  h.shift level

/-- The level inside a list that is indented if so asked. -/
abbrev inside (asked : Bool) : Nat := if asked then 1 else 0

theorem sober_indentIf (asked : Bool) : (indentIf asked).Sober P wide 0 (inside asked) := by
  cases asked with
  | false => exact .nil
  | true => exact .indent

theorem sober_dedentIf (asked : Bool) : (dedentIf asked).Sober P wide (inside asked) 0 := by
  cases asked with
  | false => exact .nil
  | true => exact .dedent

/-! ### Lists -/

theorem Sober.concat_map {α : Type} {f : α → Layout} {as : List α}
    (h : ∀ a ∈ as, (f a).Sober P wide 0 0) : (concat (as.map f)).Sober P wide 0 0 := by
  induction as with
  | nil => exact .nil
  | cons a as ih =>
    have ofRest : (concat (as.map f)).Sober P wide 0 0 := ih fun a' mem => h a' (.tail a mem)
    exact .append (h a (.head as)) ofRest

theorem Sober.of_nil_append {l : Layout} {d e : Nat}
    (h : (Layout.append .nil l).Sober P wide d e) : l.Sober P wide d e := by
  cases h with
  | append left right =>
    cases left
    exact right

theorem sober_optional {text : String} {sep : Sep} (span : Option Span)
    (spelled : IsSpelling P text) (modest : (sep.isModest || wide) = true) :
    (optional span text sep).Sober P wide 0 0 := by
  cases span with
  | none => exact .extra spelled modest
  | some span => exact .token spelled modest

theorem sober_names {names : List Ident} (h : ∀ name ∈ names, P name.text) :
    (Layout.names names).Sober P wide 0 0 := by
  cases names with
  | nil => exact .nil
  | cons name rest =>
    refine .append (.token (.word (h name (.head rest))) rfl) (.concat_map fun n mem => ?_)
    exact .append (.extra (.mark .comma) rfl) (.token (.word (h n (.tail name mem))) rfl)

variable {items : List Item}

theorem sober_stacked (h : Item.AllSober P wide items) : (stacked items).Sober P wide 0 0 := by
  refine .concat_map fun i mem => ?_
  exact .append (.gap rfl) (h i mem)

theorem sober_further (h : Item.AllSober P wide items) : (further items).Sober P wide 0 0 := by
  refine .concat_map fun i mem => ?_
  exact .append (.append (.extra (.mark .comma) rfl) (.gap rfl)) (h i mem)

theorem sober_bracketed {brackets : Option Brackets} {left right : String} {spread : Option Span}
    {sep : Sep} (ofLeft : IsSpelling P left) (ofRight : IsSpelling P right)
    (modest : (sep.isModest || wide) = true) (h : Item.AllSober P wide items) :
    (bracketed lines brackets left right items spread sep).Sober P wide 0 0 := by
  unfold bracketed
  extract_lets list dots broken
  have ofList : list.Sober P wide 0 0 := by
    unfold list
    cases items with
    | nil => exact .nil
    | cons i rest => exact .append (.append (.gap rfl) (h i (.head rest))) (sober_further h.tail)
  have ofDots : dots.Sober P wide 0 0 := by
    unfold dots
    cases spread with
    | none => exact .nil
    | some span => exact .token (.mark .ellipsis) rfl
  cases brackets with
  | none =>
    exact .append (.append (.append (.append (.append (.extra ofLeft modest)
      (sober_indentIf broken)) (ofList.within _)) (ofDots.within _)) (sober_dedentIf broken))
      (.extra ofRight rfl)
  | some b =>
    have comma : (if items.isEmpty then Layout.nil else lastComma b.right.start).Sober P wide
        (inside broken) (inside broken) := by
      split
      · exact .nil
      · exact .lastComma
    exact .append (.append (.append (.append (.append (.append (.append (.token ofLeft modest)
      (sober_indentIf broken)) (ofList.within _)) (ofDots.within _)) comma) (.comments rfl))
      (sober_dedentIf broken)) (.token ofRight rfl)

theorem sober_commaSeparated {first : Sep} (modest : (first.isModest || wide) = true)
    (h : Item.AllSober P wide items) : (commaSeparated lines items first).Sober P wide 0 0 := by
  cases items with
  | nil => exact .nil
  | cons i rest =>
    exact .append (.append (.append (.append (.gap modest) (sober_indentIf _))
      ((h i (.head rest)).within _)) ((sober_further h.tail).within _)) (sober_dedentIf _)

theorem sober_braced {lbrace rbrace : Span} (nested : Bool) (h : Item.AllSober P wide items) :
    (braced lines lbrace rbrace nested items).Sober P wide 0 0 := by
  have closing : (closingBrace lines lbrace rbrace items.isEmpty).Sober P wide 0 0 := by
    exact .token (.mark .rbrace) (Sep.isModest_ite rfl rfl)
  exact .append (.append (.append (.append (.append (.token (.mark .lbrace) rfl)
    (sober_indentIf nested)) ((sober_stacked h).within _)) (.comments rfl))
    (sober_dedentIf nested)) closing

theorem sober_clauseBody (h : Item.AllSober P wide items) :
    (clauseBody items).Sober P wide 0 0 :=
  .append (.append .indent ((sober_stacked h).within 1)) .dedent

theorem sober_members {brackets : Option Brackets} (h : Item.AllSober P wide items) :
    (members lines brackets items).Sober P wide 0 0 := by
  unfold members
  split
  · exact .extra .braces rfl
  split
  · refine .append (.append (.token (.mark .lbrace) rfl) ?_)
      (.token (.mark .rbrace) (Sep.isModest_ite rfl rfl))
    cases items with
    | nil => exact .nil
    | cons i rest =>
      refine .append (.append (.gap rfl) (h i (.head rest))) (.concat_map fun i' mem => ?_)
      exact .append (.append (.extra (.mark .semi) rfl) (.gap rfl)) (h.tail i' mem)
  · exact .append (.append (.append (.append (.append (.token (.mark .lbrace) rfl) .indent)
      ((sober_stacked h).within 1)) (.comments rfl)) .dedent) (.token (.mark .rbrace) rfl)

theorem sober_specs {lparen rparen : Option Span} (h : Item.AllSober P wide items) :
    (specs lines lparen rparen items).Sober P wide 0 0 := by
  unfold specs
  split
  · exact .append (.gap rfl) (h _ (.head []))
  · exact .append (sober_optional _ (.mark .lparen) rfl)
      (sober_optional _ (.mark .rparen) (Sep.isModest_ite rfl rfl))
  · refine .append (.append (.append (.append (.append (sober_optional _ (.mark .lparen) rfl)
      .indent) ((sober_stacked h).within 1)) ?_) .dedent) (sober_optional _ (.mark .rparen) rfl)
    cases rparen with
    | none => exact .nil
    | some r => exact .comments rfl

/-! ### Tokens -/

theorem sober_importSpec (spec : ImportSpec) (h : Word.All P spec.words) :
    (importSpec spec).Sober P wide 0 0 := by
  obtain ⟨doc, name, path, comment⟩ := spec
  rcases name with - | span | id
  · exact .token (.word h.head) rfl
  · exact .append (.token (.mark .dot) rfl) (.token (.word h.head) rfl)
  · exact .append (.token (.word h.head) rfl) (.token (.word h.tail.head) rfl)

theorem sober_qualified (qualifier : Option Qualifier) (name : Ident)
    (h : Word.All P (Qualifier.words qualifier name)) : (qualified qualifier name).Sober P wide 0 0 := by
  cases qualifier with
  | none => exact .token (.word h.head) rfl
  | some q =>
    exact .append (.append (.token (.word h.head) rfl) (.token (.mark .dot) rfl))
      (.token (.word h.tail.head) rfl)

theorem sober_channel (dir : ChanDir) (chanPos : Span) : (channel dir chanPos).Sober P wide 0 0 := by
  cases dir with
  | both => exact .token (.keyword .kwChan) rfl
  | send arrow => exact .append (.token (.keyword .kwChan) rfl) (.token (.mark .arrow) rfl)
  | recv arrow => exact .append (.token (.mark .arrow) rfl) (.token (.keyword .kwChan) rfl)

theorem isModest_unarySep (op : UnaryOp) (operand : Expr) :
    ((unarySep op operand).isModest || wide) = true := by
  unfold unarySep
  split <;> rfl

end Layout

theorem IncDecOp.isSpelling (op : IncDecOp) : IsSpelling P op.text := by
  cases op with
  | inc => exact .mark .inc
  | dec => exact .mark .dec

/-! ### Nodes -/

open Layout

mutual

theorem Expr.sober : ∀ e : Expr, Word.All P e.words → (e.layout lines).Sober P wide 0 0
  | .ident _, h => .token (.word h.head) rfl
  | .literal _, h => .token (.word h.head) rfl
  | .func _ sig body, h =>
    .append (.append (.append (.token (.keyword .kwFunc) rfl) (sig.sober h.left)) (.gap rfl))
      (body.sober true h.right)
  | .composite type _ elements _, h =>
    .append (TypeExpr.sober_opt type h.left)
      (sober_bracketed (.mark .lbrace) (.mark .rbrace) rfl (Expr.sober_items elements h.right))
  | .paren _ inner _, h =>
    .append (.append (.append (.token (.mark .lparen) rfl) (.gap rfl)) (inner.sober h))
      (.token (.mark .rparen) rfl)
  | .selector operand _ _, h =>
    .append (.append (operand.sober h.left) (.token (.mark .dot) rfl))
      (.token (.word h.right.head) rfl)
  | .index operand _ indices _, h =>
    .append (operand.sober h.left)
      (sober_bracketed (.mark .lbrack) (.mark .rbrack) rfl (Expr.sober_items indices h.right))
  | .slice operand _ lo hi max full _, h =>
    have third : (if full then extra ":" .glue ++ Expr.layoutOpt lines .glue max
        else Layout.nil).Sober P wide 0 0 := by
      split
      · exact .append (.extra (.mark .colon) rfl) (Expr.sober_opt rfl max h.right)
      · exact .nil
    .append (.append (.append (.append (.append (.append (operand.sober h.left.left.left)
      (.token (.mark .lbrack) rfl)) (Expr.sober_opt rfl lo h.left.left.right))
      (.extra (.mark .colon) rfl)) (Expr.sober_opt rfl hi h.left.right)) third)
      (.token (.mark .rbrack) rfl)
  | .assertion operand _ _ type _, h =>
    have guarded : (match type with
        | some t => gap t.pos .glue
        | none => extra "type" .glue).Sober P wide 0 0 := by
      split
      · exact .gap rfl
      · exact .extra (.keyword .kwType) rfl
    .append (.append (.append (.append (.append (operand.sober h.left) (.token (.mark .dot) rfl))
      (.token (.mark .lparen) rfl)) guarded) (TypeExpr.sober_opt type h.right))
      (.token (.mark .rparen) rfl)
  | .call fn _ args _ _, h =>
    .append (fn.sober h.left)
      (sober_bracketed (.mark .lparen) (.mark .rparen) rfl (Expr.sober_items args h.right))
  | .unary op _ operand, h =>
    .append (.append (.token (.mark op.mark) rfl) (.gap (isModest_unarySep op operand)))
      (operand.sober h)
  | .binary left op _ right, h =>
    .append (.append (.append (.append (.append (left.sober h.left) (.token (.mark op.mark) rfl))
      (sober_indentIf _)) (.gap rfl)) ((right.sober h.right).within _)) (sober_dedentIf _)
  | .keyValue key _ value, h =>
    .append (.append (.append (key.sober h.left) (.token (.mark .colon) rfl)) (.gap rfl))
      (value.sober h.right)
  | .type t, h => t.sober h

theorem Expr.sober_opt {sep : Sep} (modest : (sep.isModest || wide) = true) : ∀ o : Option Expr,
    Word.All P (Expr.wordsOpt o) → (Expr.layoutOpt lines sep o).Sober P wide 0 0
  | none, _ => .nil
  | some e, h => .append (.gap modest) (e.sober h)

theorem Expr.sober_items : ∀ es : List Expr,
    Word.All P (Expr.wordsAll es) → Item.AllSober P wide (Expr.items lines es)
  | [], _ => List.forall_mem_nil _
  | e :: es, h => List.forall_mem_cons.mpr ⟨e.sober h.left, Expr.sober_items es h.right⟩

theorem TypeExpr.sober : ∀ t : TypeExpr, Word.All P t.words → (t.layout lines).Sober P wide 0 0
  | .named qualifier name, h => sober_qualified qualifier name h
  | .generic qualifier name _ args _, h =>
    .append (sober_qualified qualifier name h.left)
      (sober_bracketed (.mark .lbrack) (.mark .rbrack) rfl (TypeExpr.sober_items args h.right))
  | .pointer _ elem, h =>
    .append (.append (.token (.mark .star) rfl) (.gap rfl)) (elem.sober h)
  | .array _ len _ elem, h =>
    .append (.append (.append (.append (.append (.token (.mark .lbrack) rfl) (.gap rfl))
      (len.sober h.left)) (.token (.mark .rbrack) rfl)) (.gap rfl)) (elem.sober h.right)
  | .countedArray _ _ _ elem, h =>
    .append (.append (.append (.append (.token (.mark .lbrack) rfl) (.token (.mark .ellipsis) rfl))
      (.token (.mark .rbrack) rfl)) (.gap rfl)) (elem.sober h)
  | .slice _ _ elem, h =>
    .append (.append (.append (.token (.mark .lbrack) rfl) (.token (.mark .rbrack) rfl))
      (.gap rfl)) (elem.sober h)
  | .map _ _ key _ value, h =>
    .append (.append (.append (.append (.append (.append (.token (.keyword .kwMap) rfl)
      (.token (.mark .lbrack) rfl)) (.gap rfl)) (key.sober h.left)) (.token (.mark .rbrack) rfl))
      (.gap rfl)) (value.sober h.right)
  | .chan dir chanPos elem, h =>
    .append (.append (sober_channel dir chanPos) (.gap rfl)) (elem.sober h)
  | .struct _ fields, h =>
    .append (.token (.keyword .kwStruct) rfl) (sober_members (fields.sober_items h))
  | .interface _ elements, h =>
    .append (.token (.keyword .kwInterface) rfl) (sober_members (elements.sober_items h))
  | .func none sig, h => .append .nil (sig.sober h)
  | .func (some _) sig, h => .append (.token (.keyword .kwFunc) rfl) (sig.sober h)
  | .paren _ inner _, h =>
    .append (.append (.append (.token (.mark .lparen) rfl) (.gap rfl)) (inner.sober h))
      (.token (.mark .rparen) rfl)
  | .variadic _ elem, h =>
    .append (.append (.token (.mark .ellipsis) rfl) (.gap rfl)) (elem.sober h)
  | .union terms, h => by
    have ofTerms : Item.AllSober P wide (TypeExpr.items lines terms) := TypeExpr.sober_items terms h
    unfold TypeExpr.layout
    split
    · exact .nil
    next i rest eq =>
      rw [eq] at ofTerms
      refine .append (.append (.gap rfl) (ofTerms i (.head rest))) (.concat_map fun i' mem => ?_)
      exact .append (.append (.extra (.mark .pipe) rfl) (.gap rfl)) (ofTerms.tail i' mem)
  | .tilde _ inner, h =>
    .append (.append (.token (.mark .tilde) rfl) (.gap rfl)) (inner.sober h)

theorem TypeExpr.sober_opt : ∀ o : Option TypeExpr,
    Word.All P (TypeExpr.wordsOpt o) → (TypeExpr.layoutOpt lines o).Sober P wide 0 0
  | none, _ => .nil
  | some t, h => t.sober h

theorem TypeExpr.sober_items : ∀ ts : List TypeExpr,
    Word.All P (TypeExpr.wordsAll ts) → Item.AllSober P wide (TypeExpr.items lines ts)
  | [], _ => List.forall_mem_nil _
  | t :: ts, h => List.forall_mem_cons.mpr ⟨t.sober h.left, TypeExpr.sober_items ts h.right⟩

theorem Signature.sober : ∀ s : Signature, Word.All P s.words → (s.layout lines).Sober P wide 0 0
  | ⟨params, results⟩, h =>
    .append (sober_bracketed (.mark .lparen) (.mark .rparen) rfl (params.sober_items h.left))
      (FieldList.sober_results results h.right)

theorem FieldList.sober_results : ∀ o : Option FieldList,
    Word.All P (FieldList.wordsOpt o) → (FieldList.results lines o).Sober P wide 0 0
  | none, _ => .nil
  | some ⟨some b, fields⟩, h =>
    show (bracketed lines (some b) "(" ")" (Field.items lines fields) none .space).Sober P wide 0 0 from
    sober_bracketed (.mark .lparen) (.mark .rparen) rfl (Field.sober_items fields h)
  | some ⟨none, []⟩, _ => .nil
  | some ⟨none, field :: _⟩, h => .append (.gap rfl) (field.sober h.left)

theorem FieldList.sober_typeParams : ∀ o : Option FieldList,
    Word.All P (FieldList.wordsOpt o) → (FieldList.typeParams lines o).Sober P wide 0 0
  | none, _ => .nil
  | some params, h =>
    show (bracketed lines params.brackets "[" "]" (params.items lines) none .glue).Sober P wide 0 0 from
    sober_bracketed (.mark .lbrack) (.mark .rbrack) rfl (params.sober_items h)

theorem FieldList.sober_items : ∀ l : FieldList,
    Word.All P l.words → Item.AllSober P wide (l.items lines)
  | ⟨_, fields⟩, h => Field.sober_items fields h

theorem Field.sober : ∀ f : Field, Word.All P f.words → (f.layout lines).Sober P wide 0 0
  | ⟨_, names, type, tag, _⟩, h => by
    have ofNames : ∀ name ∈ names, P name.text := h.left.left.idents
    have ofType : (type.layout lines).Sober P wide 0 0 := type.sober h.left.right
    have ofTag : Word.All P (tag.toList.map Literal.word) := h.right
    by_cases method : ∃ name sig, names = [name] ∧ type = .func none sig
    · obtain ⟨name, sig, rfl, rfl⟩ := method
      exact .append (.token (.word (ofNames name (.head []))) rfl) ofType.of_nil_append
    · rw [Field.layout_of_not_method lines method]
      refine .append (.append (.append (sober_names ofNames) ?_) ofType) ?_
      · split
        · exact .nil
        · exact .gap rfl
      · cases tag with
        | none => exact .nil
        | some tag => exact .token (.word ofTag.head) rfl

theorem Field.sober_items : ∀ fs : List Field,
    Word.All P (Field.wordsAll fs) → Item.AllSober P wide (Field.items lines fs)
  | [], _ => List.forall_mem_nil _
  | f :: fs, h => List.forall_mem_cons.mpr ⟨f.sober h.left, Field.sober_items fs h.right⟩

theorem Block.sober (nested : Bool) : ∀ b : Block,
    Word.All P b.words → (b.layout lines nested).Sober P wide 0 0
  | ⟨_, stmts, _⟩, h => sober_braced nested (Stmt.sober_items stmts h)

theorem Stmt.sober : ∀ s : Stmt, Word.All P s.words → (s.layout lines).Sober P wide 0 0
  | .decl d, h => d.sober h
  | .empty _, _ => .nil
  | .labeled label _ stmt, h =>
    have between : (if isEmptyStmt stmt then Layout.nil else gap stmt.pos .line).Sober P wide 0 0 := by
      split
      · exact .nil
      · exact .gap rfl
    .append (.append (.outdent (.append (.token (.word h.head) rfl) (.token (.mark .colon) rfl)))
      between) (stmt.sober h.tail)
  | .expr e, h => e.sober h
  | .send chan _ value, h =>
    .append (.append (.append (chan.sober h.left) (.token (.mark .arrow) rfl)) (.gap rfl))
      (value.sober h.right)
  | .incDec operand op _, h => .append (operand.sober h) (.token op.isSpelling rfl)
  | .assign lhs op _ rhs, h =>
    .append (.append (sober_commaSeparated rfl (Expr.sober_items lhs h.left))
      (.token (.mark op.mark) rfl)) (sober_commaSeparated rfl (Expr.sober_items rhs h.right))
  | .go _ call, h => .append (.append (.token (.keyword .kwGo) rfl) (.gap rfl)) (call.sober h)
  | .defer _ call, h =>
    .append (.append (.token (.keyword .kwDefer) rfl) (.gap rfl)) (call.sober h)
  | .returns _ results, h =>
    .append (.token (.keyword .kwReturn) rfl)
      (sober_commaSeparated rfl (Expr.sober_items results h))
  | .branch kind _ none, _ => .append (.token (.keyword kind.keyword) rfl) .nil
  | .branch kind _ (some _), h =>
    .append (.token (.keyword kind.keyword) rfl) (.token (.word h.head) rfl)
  | .block b, h => b.sober true h
  | .ifElse _ init cond body orElse, h =>
    have else_ : (if orElse.isSome then extra "else" .space else Layout.nil).Sober P wide 0 0 := by
      split
      · exact .extra (.keyword .kwElse) rfl
      · exact .nil
    .append (.append (.append (.append (.append (.append (.append (.token (.keyword .kwIf) rfl)
      (Stmt.sober_header init h.left.left.left)) (.gap rfl)) (cond.sober h.left.left.right))
      (.gap rfl)) (body.sober true h.left.right)) else_) (Stmt.sober_opt orElse h.right)
  | .caseClause _ values _ body, h =>
    have kw : IsSpelling P (if values.isEmpty then "default" else "case") := by
      split
      · exact .keyword .kwDefault
      · exact .keyword .kwCase
    .append (.append (.append (.token kw rfl)
      (sober_commaSeparated rfl (Expr.sober_items values h.left))) (.token (.mark .colon) rfl))
      (sober_clauseBody (Stmt.sober_items body h.right))
  | .switch _ init tag body, h =>
    .append (.append (.append (.append (.token (.keyword .kwSwitch) rfl)
      (Stmt.sober_header init h.left.left)) (Expr.sober_opt rfl tag h.left.right)) (.gap rfl))
      (body.sober false h.right)
  | .typeSwitch _ init guarded body, h =>
    .append (.append (.append (.append (.append (.token (.keyword .kwSwitch) rfl)
      (Stmt.sober_header init h.left.left)) (.gap rfl)) (guarded.sober h.left.right)) (.gap rfl))
      (body.sober false h.right)
  | .commClause _ comm _ body, h =>
    have kw : IsSpelling P (if comm.isNone then "default" else "case") := by
      split
      · exact .keyword .kwDefault
      · exact .keyword .kwCase
    .append (.append (.append (.token kw rfl) (Stmt.sober_opt comm h.left))
      (.token (.mark .colon) rfl)) (sober_clauseBody (Stmt.sober_items body h.right))
  | .select _ body, h =>
    .append (.append (.token (.keyword .kwSelect) rfl) (.gap rfl)) (body.sober false h)
  | .forLoop _ init cond post body, h => by
    have ofInit : (Stmt.layoutOpt lines init).Sober P wide 0 0 := Stmt.sober_opt init h.left.left.left
    have ofCond : (Expr.layoutOpt lines .space cond).Sober P wide 0 0 :=
      Expr.sober_opt rfl cond h.left.left.right
    have ofPost : (Stmt.layoutOpt lines post).Sober P wide 0 0 := Stmt.sober_opt post h.left.right
    have ofBody : (body.layout lines true).Sober P wide 0 0 := body.sober true h.right
    refine .append (.append (.append (.token (.keyword .kwFor) rfl) ?_) (.gap rfl)) ofBody
    split
    · exact ofCond
    · exact .append (.append (.append (.append ofInit
        (.extra (.mark .semi) (Sep.isModest_ite rfl rfl))) ofCond)
        (.extra (.mark .semi) (Sep.isModest_ite rfl rfl))) ofPost
  | .range _ key value op _ operand body, h => by
    have ofKey : (Expr.layoutOpt lines .space key).Sober P wide 0 0 :=
      Expr.sober_opt rfl key h.left.left.left
    have ofValue : (Expr.layoutOpt lines .space value).Sober P wide 0 0 :=
      Expr.sober_opt rfl value h.left.left.right
    have ofOperand : (operand.layout lines).Sober P wide 0 0 := operand.sober h.left.right
    have ofBody : (body.layout lines true).Sober P wide 0 0 := body.sober true h.right
    refine .append (.append (.append (.append (.append (.append (.token (.keyword .kwFor) rfl) ?_)
      (.token (.keyword .kwRange) rfl)) (.gap rfl)) ofOperand) (.gap rfl)) ofBody
    split
    · refine .append (.append (.append ofKey ?_) ofValue) ?_
      · split
        · exact .extra (.mark .comma) rfl
        · exact .nil
      · split
        · exact .token (.mark (AssignOp.mark _)) rfl
        · exact .nil
    · exact .nil

theorem Stmt.sober_opt : ∀ o : Option Stmt,
    Word.All P (Stmt.wordsOpt o) → (Stmt.layoutOpt lines o).Sober P wide 0 0
  | none, _ => .nil
  | some s, h => .append (.gap rfl) (s.sober h)

theorem Stmt.sober_header : ∀ o : Option Stmt,
    Word.All P (Stmt.wordsOpt o) → (Stmt.header lines o).Sober P wide 0 0
  | none, _ => .nil
  | some s, h => .append (.append (.gap rfl) (s.sober h)) (.extra (.mark .semi) rfl)

theorem Stmt.sober_items : ∀ ss : List Stmt,
    Word.All P (Stmt.wordsAll ss) → Item.AllSober P wide (Stmt.items lines ss)
  | [], _ => List.forall_mem_nil _
  | s :: ss, h => List.forall_mem_cons.mpr ⟨s.sober h.left, Stmt.sober_items ss h.right⟩

theorem GenDecl.sober : ∀ d : GenDecl, Word.All P d.words → (d.layout lines).Sober P wide 0 0
  | ⟨_, _, kind, _, specs, _⟩, h =>
    .append (.token (.keyword kind.keyword) rfl) (sober_specs (Spec.sober_items specs h))

theorem Spec.sober : ∀ s : Spec, Word.All P s.words → (s.layout lines).Sober P wide 0 0
  | .importSpec spec, h => sober_importSpec spec h
  | .valueSpec _ names type assign values _, h =>
    have between : (match type with
        | some t => gap t.pos .space
        | none => Layout.nil).Sober P wide 0 0 := by
      split
      · exact .gap rfl
      · exact .nil
    have ofValues : Item.AllSober P wide (Expr.items lines values) := Expr.sober_items values h.right
    have assigned : (if values.isEmpty then Layout.nil
        else optional assign "=" .space ++
          commaSeparated lines (Expr.items lines values) .space).Sober P wide 0 0 := by
      split
      · exact .nil
      · exact .append (sober_optional assign (.mark .assign) rfl)
          (sober_commaSeparated rfl ofValues)
    .append (.append (.append (sober_names h.left.left.idents) between)
      (TypeExpr.sober_opt type h.left.right)) assigned
  | .typeSpec _ _ typeParams none type _, h =>
    .append (.append (.append (.append (.token (.word h.head) rfl)
      (FieldList.sober_typeParams typeParams h.tail.left)) .nil) (.gap rfl))
      (type.sober h.tail.right)
  | .typeSpec _ _ typeParams (some _) type _, h =>
    .append (.append (.append (.append (.token (.word h.head) rfl)
      (FieldList.sober_typeParams typeParams h.tail.left)) (.token (.mark .assign) rfl))
      (.gap rfl)) (type.sober h.tail.right)

theorem Spec.sober_items : ∀ ss : List Spec,
    Word.All P (Spec.wordsAll ss) → Item.AllSober P wide (Spec.items lines ss)
  | [], _ => List.forall_mem_nil _
  | s :: ss, h => List.forall_mem_cons.mpr ⟨s.sober h.left, Spec.sober_items ss h.right⟩

end

theorem FuncDecl.sober (f : FuncDecl) (h : Word.All P f.words) : (f.layout lines).Sober P wide 0 0 := by
  obtain ⟨doc, funcPos, receiver, name, typeParams, sig, body⟩ := f
  unfold FuncDecl.layout
  extract_lets before behind
  have ofBefore : before.Sober P wide 0 0 := by
    unfold before
    cases receiver with
    | none => exact .nil
    | some fields =>
      exact sober_bracketed (.mark .lparen) (.mark .rparen) rfl
        (fields.sober_items h.left.left.left)
  have ofBehind : behind.Sober P wide 0 0 := by
    unfold behind
    cases body with
    | none => exact .nil
    | some body => exact .append (.gap rfl) (body.sober true h.right)
  exact .append (.append (.append (.append (.append (.token (.keyword .kwFunc) rfl) ofBefore)
    (.token (.word h.left.left.right.head) rfl))
    (FieldList.sober_typeParams typeParams h.left.left.right.tail)) (sig.sober h.left.right))
    ofBehind

theorem Decl.sober (d : Decl) (h : Word.All P d.words) : (d.layout lines).Sober P wide 0 0 := by
  cases d with
  | gen d => exact d.sober h
  | func f => exact f.sober h

theorem Decl.sober_layouts (prev : Option (Option DeclKind)) (ds : List Decl)
    (h : Word.All P (ds.flatMap Decl.words)) : (Decl.layouts lines prev ds).Sober P wide 0 0 := by
  induction ds generalizing prev with
  | nil => exact .nil
  | cons d ds ih =>
    have modest : ((Sep.breaks (if prev != some d.kind? || d.doc.isSome then 2 else 1)
        false).isModest || wide) = true := by
      split <;> rfl
    exact .append (.append (.gap modest) (d.sober h.left)) (ih _ h.right)

theorem SourceFile.sober (f : SourceFile) (h : Word.All P f.words) :
    f.layout.Sober P wide 0 0 :=
  .append (.append (.append (.token (.keyword .kwPackage) rfl) (.token (.word h.head) rfl))
    (Decl.sober_layouts none f.decls h.tail)) (.comments rfl)

end GoLayout
