import GoLayout.Proofs.Form.Type
import GoLayout.Proofs.Words.Reader

/-!
The rules for types, signatures and their fields take all words of the tokens they pass.
-/

namespace GoLayout.Grammar

attribute [local simp] TypeExpr.words TypeExpr.nodes Field.words Field.nodes Field.wordsAll
  Field.nodesAll FieldList.words FieldList.nodes FieldList.wordsOpt FieldList.nodesOpt
  Signature.words Signature.nodes

variable {s : Scope} {acc : Account} {K : TokenKind → Prop} {g : Readers}

/-- Readers that take the words they pass. Those of statements are for bodies only, and a type is a
name, with arguments or without, only where it begins with one. -/
structure Readers.Keeps (g : Readers) : Prop where
  forms : ∀ tape, g.Forms tape
  typed : ∀ {s acc K}, Takes (Drawn s acc) K (g.read .type) fun t ts =>
    Drawn s (acc.add t.nodes t.words) ts ∧ (t.baseName?.isSome → ∃ name, K (.name name))
  binary : ∀ min {s acc K}, Takes (Drawn s acc) K (g.read (.binary min)) fun e =>
    Drawn s (acc.add e.nodes e.words)
  unary : ∀ {s acc K}, Takes (Drawn s acc) K (g.read .unary) fun e =>
    Drawn s (acc.add e.nodes e.words)
  elements : ∀ {s acc K}, Takes (DrawnAtBrace s acc) K (g.read .elements) fun e =>
    Drawn s (acc.add (Expr.nodesAll e.list) (Expr.wordsAll e.list))
  stmt : ∀ {acc K}, Takes (Drawn .body acc) K (g.read .stmt) fun st =>
    Drawn .body (acc.add st.nodes st.words)
  ifStmt : ∀ {acc K}, Takes (Drawn .body acc) K (g.read .ifStmt) fun st =>
    Drawn .body (acc.add st.nodes st.words)

/-- The last token that is passed stops where the value does. -/
theorem Takes.stopping {α : Type} {I : List Token → Prop} {r : Reader α}
    {J : α → List Token → Prop} {stop : α → Nat} (h : Takes I K r J)
    (forms : ∀ tape level c, Forms tape level c r fun a => tape.Behind (stop a)) :
    Takes I K r fun a ts => J a ts ∧ ∃ t ∈ ts.getLast?, t.span.stop = stop a := by
  intro level c ended kind a c' level' run
  obtain ⟨ended', passed, parts, holds⟩ := h level c ended kind a c' level' run
  obtain ⟨-, -, before, last, split, -, stops⟩ :=
    forms ⟨c.left, ended.left⟩ level c ⟨[], rfl⟩ a c' level' run
  have same : passed ++ c'.tokens = (before ++ [last]).map (·.toToken) ++ c'.tokens := by
    rw [← parts, Cursor.tokens, show c.current :: c.rest = before ++ last :: c'.left from split]
    simp [Cursor.tokens, Cursor.left]
  refine ⟨ended', passed, parts, fun ts start => ⟨holds ts start, last.toToken, ?_, stops⟩⟩
  simp [List.append_cancel_right same]

namespace Readers.Keeps

variable (keeps : g.Keeps)

include keeps

theorem type : Takes (Drawn s acc) K g.type fun t => Drawn s (acc.add t.nodes t.words) :=
  keeps.typed.mono fun _ _ drawn => drawn.1

theorem expr : Takes (Drawn s acc) K g.expr fun e => Drawn s (acc.add e.nodes e.words) :=
  keeps.binary 1

theorem stoppingExpr : Takes (Drawn s acc) K g.expr fun e ts =>
    Drawn s (acc.add e.nodes e.words) ts ∧ ∃ t ∈ ts.getLast?, t.span.stop = e.stop :=
  keeps.expr.stopping fun tape _ _ => (keeps.forms tape).expr.mono fun _ _ read => read.behind

theorem exprList : Takes (Drawn s acc) K g.exprList fun es =>
    Drawn s (acc.add (Expr.nodesAll es) (Expr.wordsAll es)) := by
  simp only [Expr.nodesAll_eq_flatMap, Expr.wordsAll_eq_flatMap]
  exact .sepBy keeps.expr _

/-- The expressions before the last one have a comma behind them. -/
theorem crowdedList : Takes (Drawn s acc) K g.exprList fun es ts =>
    Drawn s (acc.add (Expr.nodesAll es) (Expr.wordsAll es)) ts ∧ Crowded Expr.stop es ts := by
  simp only [Expr.nodesAll_eq_flatMap, Expr.wordsAll_eq_flatMap]
  exact .sepByComma keeps.stoppingExpr _

theorem stmtList : Takes (Drawn .body acc) K g.stmtList fun ss =>
    Drawn .body (acc.add (Stmt.nodesAll ss) (Stmt.wordsAll ss)) := by
  simp only [Stmt.nodesAll_eq_flatMap, Stmt.wordsAll_eq_flatMap]
  refine .many ?_ _
  intro acc K
  unfold stmtList.stmt? stmtList.skipSemis
  refine .bind (.bind (.skipSemis _) fun _ => .idle) fun _ => ?_
  refine .peek_bind fun k _ => ?_
  split
  · exact .done (by simp)
  · exact .done (by simp)
  · exact .done (by simp)
  · exact .done (by simp)
  · exact .bind keeps.stmt fun st => .done (by simp)

theorem block : Takes (Drawn .body acc) K g.block fun b =>
    Drawn .body (acc.add b.nodes b.words) := by
  refine .bind .expectMark fun _ => .bind keeps.stmtList fun stmts => ?_
  exact .bind .expectMark fun _ => .done rfl

theorem body : Takes (Drawn .body acc) K g.body fun b => Drawn .body (acc.add b.nodes b.words) :=
  keeps.block.enclosed

end Readers.Keeps

theorem identList_takes : Takes (Drawn s acc) K g.identList fun names =>
    Drawn s (acc.add [] (names.map Ident.word)) := by
  have taken : Takes (Drawn s acc) K g.identList fun names =>
      Drawn s (acc.add (names.flatMap fun _ => []) (names.flatMap fun i => [i.word])) :=
    .sepBy .ident _
  refine taken.mono fun names ts drawn => ?_
  have noNodes : names.flatMap (fun _ => ([] : List Node)) = [] :=
    List.flatMap_eq_nil_iff.mpr fun _ _ => rfl
  rwa [noNodes, ← List.map_eq_flatMap] at drawn

/-- The words of a type are drawn, and it is no name, with or without arguments. -/
structure DrawnBare (s : Scope) (acc : Account) (t : TypeExpr) (ts : List Token) : Prop where
  drawn : Drawn s (acc.add t.nodes t.words) ts
  bare : t.baseName? = none

theorem Takes.bare {t : TypeExpr} {acc' : Account} (h : acc.add t.nodes t.words = acc')
    (bare : t.baseName? = none) : Takes (Drawn s acc') K (Pure.pure t) (DrawnBare s acc) :=
  .pure fun _ drawn => ⟨h ▸ drawn, bare⟩

/-! ### Parameters -/

theorem arrayFollows_takes : Takes (Drawn s acc) K arrayFollows fun _ => Drawn s acc :=
  .get_bind fun _ => .idle

namespace Param

def words : Param → List Word
  | .lone name => [name.word]
  | .typed name type => name.toList.map Ident.word ++ type.words

def nodes : Param → List Node
  | .lone _ => []
  | .typed _ type => type.nodes

theorem words_type {p : Param} (h : ¬ p.isNamed) : p.type.words = p.words := by
  cases p with
  | lone name => rfl
  | typed name type =>
    cases name with
    | none => rfl
    | some name => exact absurd rfl h

/-- A name on its own has no room for more. -/
theorem rooms_type (p : Param) : rooms p.type.nodes = rooms p.nodes := by
  cases p with
  | lone name => rfl
  | typed name type => rfl

theorem namedFields_takes {lparen : Span} {pending : List Ident} {entries : List Param} :
    Takes (Drawn s (acc.add [] (pending.map Ident.word)
        |>.add (entries.flatMap nodes) (entries.flatMap words))) K
      (namedFields lparen pending entries) fun fs =>
        Drawn s (acc.add (Field.nodesAll fs) (Field.wordsAll fs)) := by
  fun_induction namedFields lparen pending entries generalizing acc K with
  | case1 => exact .done (by simp)
  | case2 => exact .failAt
  | case3 pending name rest ih => exact .cast (by simp [words, nodes]) ih
  | case4 pending name type rest ih =>
    let shared := field (pending ++ [name]) type
    have behind := @ih (acc.add shared.nodes shared.words) K
    refine .bind (.cast ?_ behind) fun fields => .done ?_
    · simp [words, nodes, shared, field]
    · simp [shared]
  | case5 => exact .failAt

theorem fields_takes {lparen : Span} {entries : List Param} :
    Takes (Drawn s (acc.add (entries.flatMap nodes) (entries.flatMap words))) K
      (fields lparen entries) fun fs =>
        Drawn s (acc.add (Field.nodesAll fs) (Field.wordsAll fs)) := by
  unfold fields
  split
  · exact .cast (by simp) namedFields_takes
  · rename_i unnamed
    refine .done ?_
    have alone : ∀ p ∈ entries, ¬ p.isNamed := fun p mem named =>
      unnamed (List.any_eq_true.mpr ⟨p, mem, named⟩)
    rw [Field.wordsAll_eq_flatMap, Field.nodesAll_eq_flatMap, List.flatMap_map, List.flatMap_map]
    simp only [Account.add_eq, rooms_flatMap]
    congr 2
    · refine List.flatMap_congr fun p mem => ?_
      simp [field, rooms_type]
    · refine List.flatMap_congr fun p mem => ?_
      simp [field, words_type (alone p mem)]

end Param

section Rules

variable (keeps : g.Keeps)

include keeps

theorem constraint_takes : Takes (Drawn s acc) K (constraint g) fun t =>
    Drawn s (acc.add t.nodes t.words) := by
  have term {acc K} : Takes (Drawn s acc) K (constraintTerm g) fun t =>
      Drawn s (acc.add t.nodes t.words) := by
    refine .bind .acceptMark fun o => ?_
    cases o with
    | none => exact keeps.type
    | some _ => exact .bind keeps.type fun t => .done rfl
  refine .bind (.sepBy term _) fun terms => ?_
  split
  · exact .done (by simp)
  · exact .done (by simp [TypeExpr.wordsAll_eq_flatMap, TypeExpr.nodesAll_eq_flatMap])

theorem paramType_takes {typeParams : Bool} :
    Takes (Drawn s acc) K (paramType g typeParams) fun t => Drawn s (acc.add t.nodes t.words) := by
  unfold paramType
  split
  · exact constraint_takes keeps
  · refine .bind .acceptMark fun o => ?_
    cases o with
    | none => exact keeps.type
    | some _ => exact .bind keeps.type fun t => .done rfl

theorem param_takes {closer : Mark} {typeParams : Bool} :
    Takes (Drawn s acc) K (param g closer typeParams) fun p =>
      Drawn s (acc.add p.nodes p.words) := by
  refine .peek_bind fun k _ => ?_
  split
  · refine .peekNext_bind fun next => ?_
    split
    · exact .bind .ident fun name => .done rfl
    · split
      · exact .bind keeps.type fun t => .done rfl
      · refine .bind arrayFollows_takes fun _ => ?_
        split
        · exact .bind keeps.type fun t => .done rfl
        · refine .bind .ident fun name => ?_
          exact .bind (paramType_takes keeps) fun t => .done (by simp [Param.words, Param.nodes])
  · exact .bind (paramType_takes keeps) fun t => .done rfl

theorem params_takes {opener closer : Mark} {typeParams : Bool} :
    Takes (Drawn s acc) K (params g opener closer typeParams) fun l =>
      Drawn s (acc.add l.nodes l.words) := by
  refine .bind (.expect rfl) fun left => ?_
  refine .bind (.enclosed (.commaList (param_takes keeps) _)) fun entries => ?_
  refine .bind (.expect rfl) fun right => ?_
  exact .bind Param.fields_takes fun fields => .done rfl

theorem valueParams_takes : Takes (Drawn s acc) K (valueParams g) fun l =>
    Drawn s (acc.add l.nodes l.words) :=
  params_takes keeps

theorem typeParams_takes : Takes (Drawn s acc) K (typeParams g) fun l =>
    Drawn s (acc.add l.nodes l.words) :=
  params_takes keeps

theorem signature_takes : Takes (Drawn s acc) K (signature g) fun sig =>
    Drawn s (acc.add sig.nodes sig.words) := by
  refine .bind (valueParams_takes keeps) fun ps => .peek_bind fun k _ => ?_
  split
  · exact .bind (valueParams_takes keeps) fun rs => .done (by simp)
  · split
    · exact .bind keeps.type fun t => .done (by simp [Param.field])
    · exact .done (by simp)

/-! ### Members of structs and interfaces -/

omit keeps in
theorem isEmbedded_takes : Takes (Drawn s acc) K isEmbedded fun _ => Drawn s acc := by
  refine .peek_bind fun k _ => .peekNext_bind fun k' => ?_
  split
  all_goals first
    | exact .idle
    | exact .unexpected
    | exact .bind arrayFollows_takes fun _ => .idle

theorem structField_takes : Takes (Drawn s acc) K (structField g) fun f =>
    Drawn s (acc.add f.nodes f.words) := by
  refine .lead_bind fun doc => .bind isEmbedded_takes fun embedded => ?_
  extract_lets withNames
  have withNames_takes : ∀ names : List Ident,
      Takes (Drawn s (acc.add [] (names.map Ident.word))) anyKind (withNames names) fun f =>
        Drawn s (acc.add f.nodes f.words) := by
    intro names
    refine .bind keeps.type fun type => .peek_bind fun k _ => ?_
    extract_lets withTag
    have withTag_takes : ∀ tag : Option Literal,
        Takes (Drawn s (acc.add [] (names.map Ident.word) |>.add type.nodes type.words
            |>.add [] (tag.toList.map Literal.word)))
          anyKind (withTag tag) fun f => Drawn s (acc.add f.nodes f.words) := fun tag =>
      .bind .terminator fun _ => .trail_bind fun _ => .done (by simp)
    split
    · exact .bind .literal? withTag_takes
    · exact .bind (.done (by simp)) withTag_takes
  split
  · exact .bind (.done (by simp)) withNames_takes
  · exact .bind identList_takes withNames_takes

omit keeps in
/-- Members in braces behind a keyword. -/
theorem members_takes {item : Reader Field}
    (h : ∀ {acc K}, Takes (Drawn s acc) K item fun f => Drawn s (acc.add f.nodes f.words))
    (keyword : Keyword) {rounds : Nat} {make : Span → FieldList → TypeExpr}
    (same : ∀ pos l, acc.add (make pos l).nodes (make pos l).words = acc.add l.nodes l.words)
    (bare : ∀ pos l, (make pos l).baseName? = none) :
    Takes (Drawn s acc) K
      (do
        let pos ← expectKeyword keyword
        let left ← expectMark .lbrace
        let fields ← upTo .rbrace item rounds
        let right ← expectMark .rbrace
        return make pos ⟨some ⟨left, right⟩, fields⟩)
      (DrawnBare s acc) := by
  refine .bind .expectKeyword fun pos => .bind .expectMark fun left => ?_
  refine .bind (.upTo h _) fun fields => .bind .expectMark fun right => .bare ?_ (bare _ _)
  rw [same, FieldList.words, FieldList.nodes, Field.wordsAll_eq_flatMap, Field.nodesAll_eq_flatMap]

theorem structType_takes : Takes (Drawn s acc) K (structType g) (DrawnBare s acc) :=
  members_takes (structField_takes keeps) .kwStruct (fun _ _ => rfl) fun _ _ => rfl

theorem interfaceElement_takes : Takes (Drawn s acc) K (interfaceElement g) fun f =>
    Drawn s (acc.add f.nodes f.words) := by
  refine .lead_bind fun doc => .peek_bind fun k _ => .peekNext_bind fun k' => ?_
  extract_lets finish
  have finish_takes : ∀ entry : List Ident × TypeExpr,
      Takes (Drawn s (acc.add [] (entry.1.map Ident.word) |>.add entry.2.nodes entry.2.words))
        anyKind (finish entry) fun f => Drawn s (acc.add f.nodes f.words) := fun entry =>
    .bind .terminator fun _ => .trail_bind fun _ => .done (by simp)
  split
  · refine .bind .ident fun name => .bind (signature_takes keeps) fun sig => ?_
    exact .bind (.done (by simp)) finish_takes
  · exact .bind (constraint_takes keeps) fun type => .bind (.done (by simp)) finish_takes

theorem interfaceType_takes : Takes (Drawn s acc) K (interfaceType g) (DrawnBare s acc) :=
  members_takes (interfaceElement_takes keeps) .kwInterface (fun _ _ => rfl) fun _ _ => rfl

/-! ### Types -/

theorem typeName_takes : Takes (Drawn s acc) K (typeName g) fun t =>
    Drawn s (acc.add t.nodes t.words) := by
  refine .bind .ident fun first => .bind .acceptMark fun o => ?_
  extract_lets finish
  have finish_takes : ∀ q : Option Qualifier × Ident,
      Takes (Drawn s (acc.add [] (Qualifier.words q.1 q.2))) anyKind (finish q) fun t =>
        Drawn s (acc.add t.nodes t.words) := by
    rintro ⟨qualifier, name⟩
    refine .looksAt_bind fun b => ?_
    split
    · refine .bind .expectMark fun lbrack => ?_
      refine .bind (.enclosed (.commaList keeps.type _)) fun args => .bind .expectMark fun _ => ?_
      refine .roomier (.arguments lbrack) (fun _ => trivial) ?_ ?_
      · simp [TypeExpr.wordsAll_eq_flatMap]
      · simp [TypeExpr.nodesAll_eq_flatMap, or_left_comm]
    · exact .done rfl
  cases o with
  | none => exact .bind (.done (by simp [Qualifier.words])) finish_takes
  | some _ =>
    exact .bind .ident fun name => .bind (.done (by simp [Qualifier.words])) finish_takes

theorem bracketType_takes : Takes (Drawn s acc) K (bracketType g) (DrawnBare s acc) := by
  refine .bind .expectMark fun lbrack => .bind .acceptMark fun o => ?_
  cases o with
  | some _ => exact .bind keeps.type fun elem => .bare rfl rfl
  | none =>
    refine .bind .acceptMark fun o => ?_
    cases o with
    | some _ => exact .bind .expectMark fun _ => .bind keeps.type fun elem => .bare rfl rfl
    | none =>
      refine .bind (.enclosed keeps.expr) fun len => .bind .expectMark fun _ => ?_
      exact .bind keeps.type fun elem => .bare (by simp) rfl

theorem mapType_takes : Takes (Drawn s acc) K (mapType g) (DrawnBare s acc) := by
  refine .bind .expectKeyword fun _ => .bind .expectMark fun _ => ?_
  refine .bind keeps.type fun key => .bind .expectMark fun _ => ?_
  exact .bind keeps.type fun value => .bare (by simp) rfl

theorem chanType_takes : Takes (Drawn s acc) K (chanType g) (DrawnBare s acc) := by
  refine .bind .expectKeyword fun _ => .bind .acceptMark fun o => ?_
  extract_lets finish
  have finish_takes : ∀ dir : ChanDir,
      Takes (Drawn s acc) anyKind (finish dir) (DrawnBare s acc) := fun dir =>
    .bind keeps.type fun elem => .bare rfl rfl
  cases o with
  | none => exact .bind .idle finish_takes
  | some _ => exact .bind .idle finish_takes

theorem typeRule_takes : Takes (Drawn s acc) K (typeRule g) fun t ts =>
    Drawn s (acc.add t.nodes t.words) ts ∧ (t.baseName?.isSome → ∃ name, K (.name name)) := by
  have bare : ∀ (t : TypeExpr) (ts : List Token), DrawnBare s acc t ts →
      Drawn s (acc.add t.nodes t.words) ts ∧ (t.baseName?.isSome → ∃ name, K (.name name)) :=
    fun t ts h => ⟨h.drawn, by simp [h.bare]⟩
  refine .peek_bind fun k here => ?_
  split
  · exact (typeName_takes keeps).mono fun t ts drawn => ⟨drawn, fun _ => ⟨_, here⟩⟩
  · exact (bracketType_takes keeps).mono bare
  · exact .mono (.bind (.stepAt rfl) fun _ => .bind keeps.type fun elem => .bare rfl rfl) bare
  · refine .mono (.bind (.stepAt rfl) fun _ => .bind keeps.type fun inner => ?_) bare
    exact .bind .expectMark fun _ => .bare rfl rfl
  · refine .mono (.bind (.stepAt rfl) fun _ => ?_) bare
    exact .bind (signature_takes keeps) fun sig => .bare rfl rfl
  · exact (mapType_takes keeps).mono bare
  · exact (chanType_takes keeps).mono bare
  · refine .mono (.bind (.stepAt rfl) fun _ => .bind .expectKeyword fun _ => ?_) bare
    exact .bind keeps.type fun elem => .bare rfl rfl
  · exact (structType_takes keeps).mono bare
  · exact (interfaceType_takes keeps).mono bare
  · exact .unexpected

end Rules

end GoLayout.Grammar
