import GoLayout.Layout.Tree
import GoLayout.Proofs.Spacing.Tree

/-!
The layout of a tree whose tokens were moved. Where lines stay as they are, it is the layout of the
tree before, with its places moved along: lists are broken and indented by the lines of their
tokens alone.
-/

namespace GoLayout

variable {m : Moving} {lines lines' : LineTable}

/-- Every offset is on the line it was on before. -/
structure Moving.KeepsLines (m : Moving) (lines lines' : LineTable) : Prop where
  line : ∀ pos, lines'.line (m.start pos) = lines.line pos
  lastLine : ∀ s, lines'.lastLine (m.span s) = lines.lastLine s

namespace Layout

/-- The layout with its places moved. -/
def move (m : Moving) : Layout → Layout
  | .nil => .nil
  | .token span text sep => .token (m.span span) text sep
  | .extra text sep => .extra text sep
  | .gap pos sep => .gap (m.start pos) sep
  | .comments limit sep => .comments (limit.map m.start) sep
  | .lastComma pos => .lastComma (m.start pos)
  | .append a b => .append (a.move m) (b.move m)
  | .indent => .indent
  | .dedent => .dedent
  | .outdent body => .outdent (body.move m)

@[simp] theorem move_nil : (nil : Layout).move m = nil := rfl

@[simp] theorem move_token (span : Span) (text : String) (sep : Sep) :
    (token span text sep).move m = token (m.span span) text sep := rfl

@[simp] theorem move_extra (text : String) (sep : Sep) :
    (extra text sep).move m = extra text sep := rfl

@[simp] theorem move_gap (pos : Nat) (sep : Sep) :
    (gap pos sep).move m = gap (m.start pos) sep := rfl

@[simp] theorem move_comments (limit : Option Nat) (sep : Sep) :
    (comments limit sep).move m = comments (limit.map m.start) sep := rfl

@[simp] theorem move_lastComma (pos : Nat) : (lastComma pos).move m = lastComma (m.start pos) := rfl

@[simp] theorem move_append (a b : Layout) : (a ++ b).move m = a.move m ++ b.move m := rfl

@[simp] theorem move_indent : indent.move m = indent := rfl

@[simp] theorem move_dedent : dedent.move m = dedent := rfl

@[simp] theorem move_outdent (body : Layout) : (outdent body).move m = outdent (body.move m) := rfl

@[simp] theorem move_indentIf (asked : Bool) : (indentIf asked).move m = indentIf asked := by
  cases asked <;> rfl

@[simp] theorem move_dedentIf (asked : Bool) : (dedentIf asked).move m = dedentIf asked := by
  cases asked <;> rfl

@[simp] theorem move_concat (ls : List Layout) :
    (concat ls).move m = concat (ls.map (·.move m)) := by
  induction ls with
  | nil => rfl
  | cons l ls ih => rw [concat, move_append, ih, List.map_cons, concat]

@[simp] theorem move_optional (span : Option Span) (text : String) (sep : Sep) :
    (optional span text sep).move m = optional (span.map m.span) text sep := by
  cases span <;> rfl

@[simp] theorem move_ite (c : Prop) [Decidable c] (a b : Layout) :
    (if c then a else b).move m = if c then a.move m else b.move m := by
  split <;> rfl

end Layout

/-- The item with its places moved. -/
def Item.move (m : Moving) (i : Item) : Item := ⟨m.span i.extent, i.layout.move m⟩

@[simp] theorem Item.extent_move (i : Item) : (i.move m).extent = m.span i.extent := rfl

@[simp] theorem Item.layout_move (i : Item) : (i.move m).layout = i.layout.move m := rfl

@[simp] theorem Moving.start_span (s : Span) : (m.span s).start = m.start s.start := rfl

namespace Layout

/-! ### Tokens -/

@[simp] theorem move_ident (name : Ident) (sep : Sep) :
    (ident name sep).move m = ident (m.ident name) sep := rfl

@[simp] theorem move_literal (lit : Literal) (sep : Sep) :
    (literal lit sep).move m = literal (m.literal lit) sep := rfl

theorem importSpec_move (spec : ImportSpec) :
    importSpec (m.importSpec spec) = (importSpec spec).move m := by
  obtain ⟨doc, name, path, comment⟩ := spec
  rcases name with - | span | id <;> rfl

theorem qualified_move (qualifier : Option Qualifier) (name : Ident) :
    qualified (qualifier.map m.qualifier) (m.ident name) = (qualified qualifier name).move m := by
  cases qualifier <;> rfl

theorem channel_move (dir : ChanDir) (chanPos : Span) :
    channel (m.chanDir dir) (m.span chanPos) = (channel dir chanPos).move m := by
  cases dir <;> rfl

theorem unarySep_move (op : UnaryOp) (operand : Expr) :
    unarySep op (operand.move m) = unarySep op operand := by
  cases operand with
  | unary op' _ _ => cases op <;> cases op' <;> rfl
  | _ => cases op <;> rfl

theorem isEmptyStmt_move (s : Stmt) : isEmptyStmt (s.move m) = isEmptyStmt s := by
  cases s <;> rfl

/-! ### Lists -/

theorem names_move (names : List Ident) :
    Layout.names (names.map m.ident) = (Layout.names names).move m := by
  cases names with
  | nil => rfl
  | cons name rest =>
    simp only [List.map_cons, Layout.names, move_append, move_token, move_concat, List.map_map]
    rfl

theorem stacked_move (items : List Item) :
    stacked (items.map (·.move m)) = (stacked items).move m := by
  simp only [stacked, move_concat, List.map_map]
  rfl

theorem further_move (items : List Item) :
    further (items.map (·.move m)) = (further items).move m := by
  simp only [further, move_concat, List.map_map]
  rfl

variable (keeps : m.KeepsLines lines lines')

include keeps

theorem breaksAfter_move (prev : Nat) (items : List Item) :
    breaksAfter lines' prev (items.map (·.move m)) = breaksAfter lines prev items := by
  induction items generalizing prev with
  | nil => rfl
  | cons i rest ih =>
    simp only [List.map_cons, breaksAfter, Item.extent_move, Moving.start_span, keeps.line,
      keeps.lastLine, ih]

theorem isBroken_move (brackets : Option Brackets) (items : List Item) :
    isBroken lines' (brackets.map m.brackets) (items.map (·.move m)) =
      isBroken lines brackets items := by
  cases brackets with
  | none => rfl
  | some b =>
    simp only [Option.map_some, isBroken, Moving.brackets, Moving.start_span, keeps.line,
      keeps.lastLine, breaksAfter_move keeps]

theorem bracketed_move (brackets : Option Brackets) (leftText rightText : String)
    (items : List Item) (spread : Option Span) (sep : Sep) :
    bracketed lines' (brackets.map m.brackets) leftText rightText (items.map (·.move m))
        (spread.map m.span) sep =
      (bracketed lines brackets leftText rightText items spread sep).move m := by
  unfold bracketed
  rw [isBroken_move keeps]
  cases items with
  | nil => cases brackets <;> cases spread <;> simp [Moving.brackets]
  | cons i rest => cases brackets <;> cases spread <;> simp [Moving.brackets, further_move]

theorem commaSeparated_move (items : List Item) (first : Sep) :
    commaSeparated lines' (items.map (·.move m)) first =
      (commaSeparated lines items first).move m := by
  cases items with
  | nil => rfl
  | cons i rest =>
    simp [commaSeparated, breaksAfter_move keeps, keeps.lastLine, further_move]

/-- Statements in braces, stacked as those before, keep their braces around them. -/
theorem braced_move {items items' : List Item} (lbrace rbrace : Span) (nested : Bool)
    (same : stacked items' = (stacked items).move m) (size : items'.isEmpty = items.isEmpty) :
    braced lines' (m.span lbrace) (m.span rbrace) nested items' =
      (braced lines lbrace rbrace nested items).move m := by
  simp [braced, closingBrace, same, size, keeps.line]

theorem members_move (brackets : Option Brackets) (items : List Item) :
    members lines' (brackets.map m.brackets) (items.map (·.move m)) =
      (members lines brackets items).move m := by
  cases brackets with
  | none => rfl
  | some b =>
    simp only [Option.map_some, members, Moving.brackets, Moving.start_span, keeps.line,
      stacked_move, List.isEmpty_map]
    cases items <;> split <;> simp [Function.comp_def]

theorem specs_move (lparen rparen : Option Span) (items : List Item) :
    specs lines' (lparen.map m.span) (rparen.map m.span) (items.map (·.move m)) =
      (specs lines lparen rparen items).move m := by
  rcases lparen with - | l <;> rcases rparen with - | r <;>
    rcases items with - | ⟨i, - | ⟨j, rest⟩⟩ <;>
    simp [specs, ← stacked_move, keeps.line]

end Layout

/-! ### Nodes -/

theorem TypeExpr.exists_of_move_eq_func {t : TypeExpr} {sig : Signature}
    (h : t.move m = .func none sig) : ∃ sig', t = .func none sig' := by
  cases t with
  | func funcPos sig' =>
    cases funcPos with
    | none => exact ⟨sig', rfl⟩
    | some span => simp [TypeExpr.move] at h
  | _ => simp [TypeExpr.move] at h

/-- A field that is no method has its names, a space, its type and its tag. -/
theorem Field.layout_of_not_method {names : List Ident} {type : TypeExpr} {doc comment : Link}
    {tag : Option Literal} (lines : LineTable)
    (h : ¬∃ name sig, names = [name] ∧ type = .func none sig) :
    Field.layout lines ⟨doc, names, type, tag, comment⟩ =
      Layout.names names ++ (if names.isEmpty then .nil else .gap type.pos .space) ++
        type.layout lines ++ (match tag with
          | some tag => Layout.literal tag .space
          | none => .nil) := by
  rw [Field.layout.eq_def]
  split
  · rename_i parts
    cases parts
    exact absurd ⟨_, _, rfl, rfl⟩ h
  · rename_i parts
    cases parts
    rfl

set_option linter.unusedSectionVars false

variable (keeps : m.KeepsLines lines lines')

include keeps

mutual

theorem Expr.layout_move : ∀ e : Expr, (e.move m).layout lines' = (e.layout lines).move m
  | .ident _ => rfl
  | .literal _ => rfl
  | .func _ sig body => by
    simp [Expr.move, Expr.layout, sig.layout_move, body.layout_move, body.lbrace_move]
  | .composite type _ elements _ => by
    simp [Expr.move, Expr.layout, TypeExpr.layoutOpt_move type, Expr.items_move elements,
      ← Layout.bracketed_move keeps, Moving.brackets]
  | .paren _ inner _ => by simp [Expr.move, Expr.layout, inner.layout_move, inner.pos_move]
  | .selector operand _ _ => by simp [Expr.move, Expr.layout, operand.layout_move]
  | .index operand _ indices _ => by
    simp [Expr.move, Expr.layout, operand.layout_move, Expr.items_move indices,
      ← Layout.bracketed_move keeps, Moving.brackets]
  | .slice operand _ lo hi max full _ => by
    simp [Expr.move, Expr.layout, operand.layout_move, Expr.layoutOpt_move _ lo,
      Expr.layoutOpt_move _ hi, Expr.layoutOpt_move _ max]
  | .assertion operand _ _ type _ => by
    cases type with
    | none =>
      simp [Expr.move, Expr.layout, operand.layout_move, TypeExpr.moveOpt, TypeExpr.layoutOpt]
    | some type =>
      simp [Expr.move, Expr.layout, operand.layout_move, TypeExpr.moveOpt, TypeExpr.layoutOpt,
        type.layout_move, type.pos_move]
  | .call fn _ args spread _ => by
    simp [Expr.move, Expr.layout, fn.layout_move, Expr.items_move args,
      ← Layout.bracketed_move keeps, Moving.brackets]
  | .unary op _ operand => by
    simp [Expr.move, Expr.layout, operand.layout_move, operand.pos_move, Layout.unarySep_move]
  | .binary left op _ right => by
    simp [Expr.move, Expr.layout, left.layout_move, right.layout_move, right.pos_move, keeps.line,
      keeps.lastLine]
  | .keyValue key _ value => by
    simp [Expr.move, Expr.layout, key.layout_move, value.layout_move, value.pos_move]
  | .type t => t.layout_move

theorem Expr.layoutOpt_move (sep : Sep) : ∀ o : Option Expr,
    Expr.layoutOpt lines' sep (Expr.moveOpt m o) = (Expr.layoutOpt lines sep o).move m
  | none => rfl
  | some e => by simp [Expr.moveOpt, Expr.layoutOpt, e.layout_move, e.pos_move]

theorem Expr.items_move : ∀ es : List Expr,
    Expr.items lines' (Expr.moveAll m es) = (Expr.items lines es).map (·.move m)
  | [] => rfl
  | e :: es => by
    simp [Expr.moveAll, Expr.items, e.layout_move, e.pos_move, e.stop_move, Expr.items_move es,
      Item.move, Moving.span]

theorem TypeExpr.layout_move : ∀ t : TypeExpr, (t.move m).layout lines' = (t.layout lines).move m
  | .named qualifier name => Layout.qualified_move qualifier name
  | .generic _ _ _ args _ => by
    simp [TypeExpr.move, TypeExpr.layout, Layout.qualified_move, TypeExpr.items_move args,
      ← Layout.bracketed_move keeps, Moving.brackets]
  | .pointer _ elem => by simp [TypeExpr.move, TypeExpr.layout, elem.layout_move, elem.pos_move]
  | .array _ len _ elem => by
    simp [TypeExpr.move, TypeExpr.layout, len.layout_move, len.pos_move, elem.layout_move,
      elem.pos_move]
  | .countedArray _ _ _ elem => by
    simp [TypeExpr.move, TypeExpr.layout, elem.layout_move, elem.pos_move]
  | .slice _ _ elem => by simp [TypeExpr.move, TypeExpr.layout, elem.layout_move, elem.pos_move]
  | .map _ _ key _ value => by
    simp [TypeExpr.move, TypeExpr.layout, key.layout_move, key.pos_move, value.layout_move,
      value.pos_move]
  | .chan _ _ elem => by
    simp [TypeExpr.move, TypeExpr.layout, Layout.channel_move, elem.layout_move, elem.pos_move]
  | .struct _ fields => by
    simp [TypeExpr.move, TypeExpr.layout, fields.items_move, fields.brackets_move,
      ← Layout.members_move keeps]
  | .interface _ elements => by
    simp [TypeExpr.move, TypeExpr.layout, elements.items_move, elements.brackets_move,
      ← Layout.members_move keeps]
  | .func funcPos sig => by
    cases funcPos <;> simp [TypeExpr.move, TypeExpr.layout, sig.layout_move]
  | .paren _ inner _ => by simp [TypeExpr.move, TypeExpr.layout, inner.layout_move, inner.pos_move]
  | .variadic _ elem => by simp [TypeExpr.move, TypeExpr.layout, elem.layout_move, elem.pos_move]
  | .union terms => by
    simp only [TypeExpr.move, TypeExpr.layout, TypeExpr.items_move terms]
    cases TypeExpr.items lines terms <;> simp [Function.comp_def]
  | .tilde _ inner => by simp [TypeExpr.move, TypeExpr.layout, inner.layout_move, inner.pos_move]

theorem TypeExpr.layoutOpt_move : ∀ o : Option TypeExpr,
    TypeExpr.layoutOpt lines' (TypeExpr.moveOpt m o) = (TypeExpr.layoutOpt lines o).move m
  | none => rfl
  | some t => t.layout_move

theorem TypeExpr.items_move : ∀ ts : List TypeExpr,
    TypeExpr.items lines' (TypeExpr.moveAll m ts) = (TypeExpr.items lines ts).map (·.move m)
  | [] => rfl
  | t :: ts => by
    simp [TypeExpr.moveAll, TypeExpr.items, t.layout_move, t.pos_move, t.stop_move,
      TypeExpr.items_move ts, Item.move, Moving.span]

theorem Signature.layout_move : ∀ s : Signature, (s.move m).layout lines' = (s.layout lines).move m
  | ⟨params, results⟩ => by
    have ofParams := Layout.bracketed_move keeps params.brackets "(" ")" (params.items lines) none
      .glue
    rw [← params.items_move, ← params.brackets_move] at ofParams
    simp only [Signature.move, Signature.layout, FieldList.results_move results,
      Layout.move_append, ← ofParams, Option.map_none]

theorem FieldList.results_move : ∀ o : Option FieldList,
    FieldList.results lines' (FieldList.moveOpt m o) = (FieldList.results lines o).move m
  | none => rfl
  | some ⟨some b, fields⟩ => by
    simp [FieldList.moveOpt, FieldList.results, FieldList.move, FieldList.items,
      Field.items_move fields, ← Layout.bracketed_move keeps]
  | some ⟨none, fields⟩ => by
    simp only [FieldList.moveOpt, FieldList.results, FieldList.move, FieldList.items,
      Field.items_move fields, Option.map_none]
    cases Field.items lines fields <;> simp

theorem FieldList.typeParams_move : ∀ o : Option FieldList,
    FieldList.typeParams lines' (FieldList.moveOpt m o) = (FieldList.typeParams lines o).move m
  | none => rfl
  | some params => by
    simp [FieldList.moveOpt, FieldList.typeParams, params.items_move, params.brackets_move,
      ← Layout.bracketed_move keeps]

theorem FieldList.items_move : ∀ l : FieldList,
    (l.move m).items lines' = (l.items lines).map (·.move m)
  | ⟨_, fields⟩ => Field.items_move fields

theorem Field.layout_move : ∀ f : Field, (f.move m).layout lines' = (f.layout lines).move m
  | ⟨_, names, type, tag, _⟩ => by
    have ofType := type.layout_move
    by_cases method : ∃ name sig, names = [name] ∧ type = .func none sig
    · obtain ⟨name, sig, rfl, rfl⟩ := method
      have ofSig := (Layout.append.inj ofType).2
      simp [Field.move, Field.layout, TypeExpr.move, ofSig]
    · have method' : ¬∃ name sig, names.map m.ident = [name] ∧ type.move m = .func none sig := by
        rintro ⟨name, sig, one, isFunc⟩
        obtain ⟨name, rfl, -⟩ := List.map_eq_singleton_iff.mp one
        obtain ⟨sig, rfl⟩ := TypeExpr.exists_of_move_eq_func isFunc
        exact method ⟨name, sig, rfl, rfl⟩
      rw [Field.move, Field.layout_of_not_method lines method,
        Field.layout_of_not_method lines' method']
      cases tag <;> simp [Layout.names_move, ofType, type.pos_move]

theorem Field.items_move : ∀ fs : List Field,
    Field.items lines' (Field.moveAll m fs) = (Field.items lines fs).map (·.move m)
  | [] => rfl
  | f :: fs => by
    simp [Field.moveAll, Field.items, f.layout_move, f.pos_move, f.stop_move, Field.items_move fs,
      Item.move, Moving.span]

theorem Block.layout_move (nested : Bool) : ∀ b : Block,
    (b.move m).layout lines' nested = (b.layout lines nested).move m
  | ⟨_, stmts, _⟩ =>
    Layout.braced_move keeps _ _ nested (Stmt.stacked_move stmts) (by cases stmts <;> rfl)

theorem Stmt.layout_move : ∀ s : Stmt, (s.move m).layout lines' = (s.layout lines).move m
  | .decl d => d.layout_move
  | .empty _ => rfl
  | .labeled _ _ stmt => by
    simp [Stmt.move, Stmt.layout, Layout.isEmptyStmt_move, stmt.layout_move, stmt.pos_move]
  | .expr e => e.layout_move
  | .send chan _ value => by
    simp [Stmt.move, Stmt.layout, chan.layout_move, value.layout_move, value.pos_move]
  | .incDec operand _ _ => by simp [Stmt.move, Stmt.layout, operand.layout_move]
  | .assign lhs _ _ rhs => by
    simp [Stmt.move, Stmt.layout, Expr.items_move lhs, Expr.items_move rhs,
      Layout.commaSeparated_move keeps]
  | .go _ call => by simp [Stmt.move, Stmt.layout, call.layout_move, call.pos_move]
  | .defer _ call => by simp [Stmt.move, Stmt.layout, call.layout_move, call.pos_move]
  | .returns _ results => by
    simp [Stmt.move, Stmt.layout, Expr.items_move results, Layout.commaSeparated_move keeps]
  | .branch _ _ label => by cases label <;> rfl
  | .block b => b.layout_move true
  | .ifElse _ init cond body orElse => by
    simp [Stmt.move, Stmt.layout, Stmt.header_move init, cond.layout_move, cond.pos_move,
      body.layout_move, body.lbrace_move, Stmt.layoutOpt_move orElse, Stmt.isSome_moveOpt]
  | .caseClause _ values _ body => by
    simp [Stmt.move, Stmt.layout, Expr.items_move values, Layout.commaSeparated_move keeps,
      Layout.clauseBody, Stmt.stacked_move body, Expr.isEmpty_moveAll]
  | .switch _ init tag body => by
    simp [Stmt.move, Stmt.layout, Stmt.header_move init, Expr.layoutOpt_move _ tag,
      body.layout_move, body.lbrace_move]
  | .typeSwitch _ init guarded body => by
    simp [Stmt.move, Stmt.layout, Stmt.header_move init, guarded.layout_move, guarded.pos_move,
      body.layout_move, body.lbrace_move]
  | .commClause _ comm _ body => by
    simp [Stmt.move, Stmt.layout, Stmt.layoutOpt_move comm, Layout.clauseBody,
      Stmt.stacked_move body, Stmt.isNone_moveOpt]
  | .select _ body => by simp [Stmt.move, Stmt.layout, body.layout_move, body.lbrace_move]
  | .forLoop _ init cond post body => by
    simp [Stmt.move, Stmt.layout, Stmt.layoutOpt_move init, Expr.layoutOpt_move _ cond,
      Stmt.layoutOpt_move post, body.layout_move, body.lbrace_move, Stmt.isNone_moveOpt,
      Stmt.isSome_moveOpt, Expr.isSome_moveOpt]
  | .range _ key value op _ operand body => by
    cases op <;>
      simp [Stmt.move, Stmt.layout, Expr.layoutOpt_move _ key, Expr.layoutOpt_move _ value,
        operand.layout_move, operand.pos_move, body.layout_move, body.lbrace_move,
        Expr.isSome_moveOpt]

theorem Stmt.layoutOpt_move : ∀ o : Option Stmt,
    Stmt.layoutOpt lines' (Stmt.moveOpt m o) = (Stmt.layoutOpt lines o).move m
  | none => rfl
  | some s => by simp [Stmt.moveOpt, Stmt.layoutOpt, s.layout_move, s.pos_move]

theorem Stmt.header_move : ∀ o : Option Stmt,
    Stmt.header lines' (Stmt.moveOpt m o) = (Stmt.header lines o).move m
  | none => rfl
  | some s => by simp [Stmt.moveOpt, Stmt.header, s.layout_move, s.pos_move]

/-- Statements are stacked by where they start; where they stop does not matter. -/
theorem Stmt.stacked_move : ∀ ss : List Stmt,
    Layout.stacked (Stmt.items lines' (Stmt.moveAll m ss)) =
      (Layout.stacked (Stmt.items lines ss)).move m
  | [] => rfl
  | s :: ss => by
    have rest := Stmt.stacked_move ss
    rw [Layout.stacked, Layout.stacked] at rest
    simp [Stmt.moveAll, Stmt.items, Layout.stacked, Layout.concat, s.layout_move, s.pos_move, rest]

theorem GenDecl.layout_move : ∀ d : GenDecl, (d.move m).layout lines' = (d.layout lines).move m
  | ⟨_, _, _, _, specs, _⟩ => by
    simp [GenDecl.move, GenDecl.layout, Spec.items_move specs, Layout.specs_move keeps]

theorem Spec.layout_move : ∀ s : Spec, (s.move m).layout lines' = (s.layout lines).move m
  | .importSpec spec => Layout.importSpec_move spec
  | .valueSpec _ names none assign values _ => by
    simp [Spec.move, Spec.layout, Layout.names_move, TypeExpr.moveOpt, TypeExpr.layoutOpt,
      Expr.isEmpty_moveAll, Expr.items_move values, Layout.commaSeparated_move keeps]
  | .valueSpec _ names (some type) assign values _ => by
    simp [Spec.move, Spec.layout, Layout.names_move, TypeExpr.moveOpt, TypeExpr.layoutOpt,
      type.layout_move, type.pos_move, Expr.isEmpty_moveAll, Expr.items_move values,
      Layout.commaSeparated_move keeps]
  | .typeSpec _ _ typeParams assign type _ => by
    cases assign <;>
      simp [Spec.move, Spec.layout, FieldList.typeParams_move typeParams, type.layout_move,
        type.pos_move]

theorem Spec.items_move : ∀ ss : List Spec,
    Spec.items lines' (Spec.moveAll m ss) = (Spec.items lines ss).map (·.move m)
  | [] => rfl
  | s :: ss => by
    simp [Spec.moveAll, Spec.items, s.layout_move, s.pos_move, s.stop_move, Spec.items_move ss,
      Item.move, Moving.span]

end

theorem FuncDecl.layout_move (f : FuncDecl) :
    (f.move m).layout lines' = (f.layout lines).move m := by
  obtain ⟨doc, funcPos, receiver, name, typeParams, sig, body⟩ := f
  have params := FieldList.typeParams_move keeps typeParams
  rw [FieldList.moveOpt_eq] at params
  cases receiver <;> cases body <;>
    simp [FuncDecl.move, FuncDecl.layout, params, sig.layout_move keeps, Block.layout_move keeps,
      Block.lbrace_move, FieldList.items_move keeps, FieldList.brackets_move,
      ← Layout.bracketed_move keeps]

theorem Decl.layout_move (d : Decl) : (d.move m).layout lines' = (d.layout lines).move m := by
  cases d with
  | gen d => exact d.layout_move keeps
  | func f => exact f.layout_move keeps

omit keeps in
theorem Decl.kind?_move (d : Decl) : (d.move m).kind? = d.kind? := by
  cases d with
  | gen d => cases d; rfl
  | func f => rfl

omit keeps in
theorem Decl.doc_move (d : Decl) : (d.move m).doc = d.doc := by
  cases d with
  | gen d => cases d; rfl
  | func f => rfl

theorem Decl.layouts_move (prev : Option (Option DeclKind)) (ds : List Decl) :
    Decl.layouts lines' prev (ds.map (·.move m)) = (Decl.layouts lines prev ds).move m := by
  induction ds generalizing prev with
  | nil => rfl
  | cons d ds ih =>
    simp only [List.map_cons, Decl.layouts, Decl.kind?_move, Decl.doc_move, Decl.pos_move,
      d.layout_move keeps, ih, Layout.move_append, Layout.move_gap]

end GoLayout
