import GoLayout.Proofs.Grammar.Basic
import GoLayout.Proofs.Words.Type

/-!
The rules for expressions take the words of the tokens they pass. An expression that is taken as
the type of a literal may lose some: of the arguments of a type only those in the last brackets
are kept. Then these brackets have a closing one before them, and do not fit.
-/

namespace GoLayout

attribute [local simp] Expr.words Expr.nodes Expr.wordsOpt Expr.nodesOpt Expr.wordsAll Expr.nodesAll
  TypeExpr.words TypeExpr.nodes TypeExpr.wordsOpt TypeExpr.nodesOpt TypeExpr.wordsAll
  TypeExpr.nodesAll

theorem TypeExpr.baseName?_words {t : TypeExpr} :
    ∀ b ∈ t.baseName?, (Qualifier.words b.1 b.2).Sublist t.words := by
  intro b found
  cases t <;> cases found
  · exact List.Sublist.refl _
  · exact List.sublist_append_left _ _

/-- A name that an expression is taken as has all its words, unless it has brackets already. -/
def Expr.Names (e : Expr) (t : TypeExpr) : Prop :=
  ∀ b ∈ t.baseName?, ¬ e.isClosed → Qualifier.words b.1 b.2 = e.words ∧ rooms e.nodes = []

theorem Expr.words_of_toType? {e : Expr} {t : TypeExpr} {level : Grammar.Level}
    (names : e.namesLiteral level) (isOpen : ¬ e.isClosed) (h : e.toType? = some t) :
    t.words = e.words := by
  unfold Expr.namesLiteral at names
  split at names
  · exact absurd rfl isOpen
  · cases h
    rfl
  · rename_i operand dot member
    cases operand <;> cases h
    rfl
  · exact absurd rfl isOpen
  all_goals first | cases h; rfl | nomatch names

namespace Grammar

/-- An expression that is taken as a type loses what the type has no room for. -/
theorem asType_trims (ts : List Token) :
    Expr.AsType
      (fun e t => e.Names t ∧
        (Account.empty.add e.nodes e.words).Trims ts (Account.empty.add t.nodes t.words))
      fun es types => (Account.empty.add (Expr.nodesAll es) (Expr.wordsAll es)).Trims ts
        (Account.empty.add (TypeExpr.nodesAll types) (TypeExpr.wordsAll types)) where
  type := fun t => ⟨fun b named isOpen => absurd (Option.isSome_of_mem named) isOpen, .refl⟩
  name := fun name => ⟨by rintro _ ⟨⟩ -; exact ⟨rfl, rfl⟩, .refl⟩
  member := fun package dot member => ⟨by rintro _ ⟨⟩ -; exact ⟨rfl, rfl⟩, .refl⟩
  generic := by
    rintro operand base qualifier name lbrack indices args rbrack ⟨names, ofOperand⟩ named ofIndices
    refine ⟨fun b found isOpen => absurd rfl isOpen, ?_, ?_, ?_⟩
    · exact ((TypeExpr.baseName?_words _ named).trans ofOperand.sublist).append ofIndices.sublist
    · intro held r mem
      rcases List.mem_cons.mp mem with rfl | inArgs
      · trivial
      · refine ofIndices.held (fun r inIndices => held r ?_) r inArgs
        simp_all [Account.empty]
    · intro held fit
      have isOpen : ¬ operand.isClosed := fun closed =>
        held (.behind lbrack) (by simp [closed]) (fit (.arguments lbrack) (by simp))
      obtain ⟨operandWords, noRooms⟩ := names _ named isOpen
      obtain ⟨argWords, fitted⟩ := ofIndices.whole
        (fun r inIndices => held r (by simp_all [Account.empty]))
        fun r inArgs => fit r (by simp_all [Account.empty])
      simp_all [Account.empty]
  paren := fun lparen inner t rparen ofInner => ⟨nofun, ofInner.2⟩
  pointer := fun star operand t ofOperand => ⟨nofun, ofOperand.2⟩
  nil := .refl
  cons := fun e t es types ofExpr ofRest => by simpa using ofExpr.2.add ofRest

variable {s : Scope} {acc : Account} {K : TokenKind → Prop} {g : Readers}

/-- Behind an operand: its words are drawn, and if it ends with brackets, their closing one is the
last token. -/
structure AtOperand (s : Scope) (acc : Account) (x : Expr) (ts : List Token) : Prop where
  drawn : Drawn s (acc.add x.nodes x.words) ts
  closed : x.isClosed → ∃ t ∈ ts.getLast?, t.kind = .mark .rbrack ∨ t.kind = .mark .rparen

/-- A brace that follows the type of a literal: in plain tokens the type does not end with
brackets, and so it has all words. -/
theorem AtOperand.drawnAtBrace {x : Expr} {ts : List Token} {level : Level} {type : TypeExpr}
    (h : AtOperand s acc x ts) (names : x.namesLiteral level) (taken : x.toType? = some type) :
    DrawnAtBrace s (acc.add type.nodes type.words) ts := by
  intro t brace
  have silent : t.word? = none := by rw [Token.word?, brace]
  have trimmed := ((asType_trims (ts ++ [t])).all.1 x type taken).2
  refine (h.drawn.concat_silent silent).trim (.add .refl trimmed) fun plain => ?_
  have isOpen : ¬ x.isClosed := by
    intro closed
    obtain ⟨last, isLast, isCloser⟩ := h.closed closed
    have apart := (List.isChain_append.mp plain.noBrace).2.2 last isLast t rfl brace
    rcases isCloser with rbrack | rparen
    · exact apart.1 rbrack
    · exact apart.2 rparen
  simp [Expr.words_of_toType? names isOpen taken]

/-- An operand that ends with no bracket of a type. -/
theorem Drawn.operand {e : Expr} {ts : List Token} (drawn : Drawn s (acc.add e.nodes e.words) ts)
    (isOpen : ¬ e.isClosed) : AtOperand s acc e ts :=
  ⟨drawn, fun closed => absurd closed isOpen⟩

theorem Takes.operand {e : Expr} {acc' : Account} (h : acc.add e.nodes e.words = acc')
    (isOpen : ¬ e.isClosed) : Takes (Drawn s acc') K (Pure.pure e) (AtOperand s acc) := by
  subst h
  exact .pure fun ts drawn => drawn.operand isOpen

/-- Brackets behind an operand: if it ends with brackets itself, they do not fit as the arguments of
a type. -/
theorem AtOperand.bracket {x : Expr} {ts : List Token} {t : Token} (h : AtOperand s acc x ts)
    (lbrack : t.kind = .mark .lbrack) :
    Drawn s (acc.add x.nodes x.words) (ts ++ [t]) ∧
      (x.isClosed → ¬ (Room.arguments t.span).Fits (ts ++ [t])) := by
  refine ⟨h.drawn.concat_silent (by rw [Token.word?, lbrack]), fun closed fits => ?_⟩
  obtain ⟨last, isLast, isCloser⟩ := h.closed closed
  have apart := fits.between isLast rfl
  rcases isCloser with rbrack | rparen
  · exact apart.1 rbrack
  · exact apart.2 rparen

section Rules

variable (keeps : g.Keeps)

include keeps

/-! ### Operands -/

theorem funcOperand_takes :
    Takes (Drawn s acc) (· = .keyword .kwFunc) (funcOperand g) (AtOperand s acc) := by
  refine .bind .stepFunc fun funcPos => .bind (signature_takes keeps) fun sig => ?_
  refine .looksAt_bind fun b => ?_
  split
  · refine .bind (.enclosed keeps.body) fun body => .pure fun ts drawn => ?_
    have drawn' : Drawn s (acc.add (Expr.func funcPos sig body).nodes
        (Expr.func funcPos sig body).words) ts := by simpa using drawn.leave
    exact drawn'.operand Bool.false_ne_true
  · exact .pure fun ts drawn => drawn.leave.operand Bool.false_ne_true

/-- A type that begins with no name. -/
theorem typeOperand_takes (noName : ∀ name, ¬ K (.name name)) :
    Takes (Drawn s acc) K g.type fun t => AtOperand s acc (.type t) := by
  refine keeps.typed.mono fun t ts ⟨drawn, named⟩ => Drawn.operand drawn fun closed => ?_
  obtain ⟨name, here⟩ := named closed
  exact noName name here

theorem operand_takes : Takes (Drawn s acc) K (operand g) (AtOperand s acc) := by
  refine .peek_bind fun k _ => ?_
  split
  · exact .bind .ident fun name => .operand rfl Bool.false_ne_true
  · exact .bind .stepLiteral fun span => .operand rfl Bool.false_ne_true
  · refine .bind (.stepAt rfl) fun _ => .bind keeps.expr.enclosed fun inner => ?_
    refine .bind .expectLast fun _ => .pure fun ts ⟨drawn, t, last, rparen⟩ => ?_
    exact ⟨drawn, fun _ => ⟨t, last, .inr rparen⟩⟩
  · exact funcOperand_takes keeps
  · exact .bind (typeOperand_takes keeps nofun) fun t => .pure fun _ h => h
  · exact .bind (typeOperand_takes keeps nofun) fun t => .pure fun _ h => h
  · exact .bind (typeOperand_takes keeps nofun) fun t => .pure fun _ h => h
  · exact .bind (typeOperand_takes keeps nofun) fun t => .pure fun _ h => h
  · exact .bind (typeOperand_takes keeps nofun) fun t => .pure fun _ h => h
  · exact .unexpected

/-! ### Suffixes -/

theorem dotSuffix_takes {x : Expr} :
    Takes (Drawn s (acc.add x.nodes x.words)) K (dotSuffix g x) (AtOperand s acc) := by
  refine .bind .expectMark fun dot => .peek_bind fun k _ => ?_
  split
  · exact .bind .ident fun name => .operand (by simp) Bool.false_ne_true
  · refine .bind (.stepAt rfl) fun lparen => .bind (.accept rfl) fun o => ?_
    extract_lets finish
    have finish_takes : ∀ type : Option TypeExpr,
        Takes (Drawn s (acc.add x.nodes x.words
            |>.add (TypeExpr.nodesOpt type) (TypeExpr.wordsOpt type)))
          anyKind (finish type) (AtOperand s acc) := fun type =>
      .bind .expectMark fun rparen => .operand (by simp) Bool.false_ne_true
    cases o with
    | some _ => exact .bind (.done (by simp)) finish_takes
    | none => exact .bind (.map keeps.type) finish_takes
  · exact .unexpected

theorem nextIndex?_takes : Takes (Drawn s acc) K (nextIndex? g) fun o =>
    Drawn s (acc.add (o.toList.flatMap Expr.nodes) (o.toList.flatMap Expr.words)) := by
  refine .bind .acceptMark fun o => ?_
  cases o with
  | none => exact .done (by simp)
  | some _ =>
    refine .looksAt_bind fun b => ?_
    split
    · exact .done (by simp)
    · exact .bind keeps.expr fun e => .done (by simp)

theorem sliceBound_takes : Takes (Drawn s acc) K (sliceBound g) fun o =>
    Drawn s (acc.add (Expr.nodesOpt o) (Expr.wordsOpt o)) := by
  refine .peek_bind fun k _ => ?_
  split
  · exact .done (by simp)
  · exact .done (by simp)
  · exact .bind keeps.expr fun e => .done rfl

theorem sliceBounds_takes : Takes (Drawn s acc) K (sliceBounds g) fun b =>
    Drawn s (acc.add (Expr.nodesOpt b.1) (Expr.wordsOpt b.1)
      |>.add (Expr.nodesOpt b.2.1) (Expr.wordsOpt b.2.1)) := by
  refine .bind .acceptMark fun o => ?_
  cases o with
  | none => exact .done (by simp)
  | some _ =>
    refine .bind (sliceBound_takes keeps) fun hi => .bind .acceptMark fun o => ?_
    cases o with
    | none => exact .done (by simp)
    | some _ => exact .bind (sliceBound_takes keeps) fun max => .done rfl

theorem bracketSuffix_takes {x : Expr} :
    Takes (AtOperand s acc x) K (bracketSuffix g x) (AtOperand s acc) := by
  refine .bind (.expectThat (J := fun lbrack ts => Drawn s (acc.add x.nodes x.words) ts ∧
    (x.isClosed → ¬ (Room.arguments lbrack).Fits ts)) fun ts t h => h.bracket) fun lbrack => ?_
  refine .enclosed (.looksAt_bind fun b => ?_)
  have stays : ∀ ts ts' : List Token, (x.isClosed → ¬ (Room.arguments lbrack).Fits ts) →
      x.isClosed → ¬ (Room.arguments lbrack).Fits (ts ++ ts') :=
    fun ts ts' misfit closed fits => misfit closed fits.of_append
  extract_lets withFirst
  have slice_takes : ∀ {K} (first : Option Expr),
      Takes (Drawn s (acc.add x.nodes x.words |>.add (Expr.nodesOpt first) (Expr.wordsOpt first))) K
        (do
          let bounds ← sliceBounds g
          return Expr.slice x lbrack first bounds.1 bounds.2.1 bounds.2.2 (← expectMark .rbrack))
        (AtOperand s acc) := by
    intro K first
    refine .bind (sliceBounds_takes keeps) fun bounds => .bind .expectMark fun rbrack => ?_
    exact .operand (by simp) Bool.false_ne_true
  have withFirst_takes : ∀ first : Option Expr,
      Takes (fun ts =>
        Drawn s (acc.add x.nodes x.words |>.add (Expr.nodesOpt first) (Expr.wordsOpt first)) ts ∧
          (x.isClosed → ¬ (Room.arguments lbrack).Fits ts))
        anyKind (withFirst first) (AtOperand s acc) := by
    intro first
    refine .peek_bind fun k _ => ?_
    cases first with
    | none => exact (slice_takes none).behind fun ts h => h.1
    | some first =>
      dsimp only
      split
      · refine .bind (.keep (.many (nextIndex?_takes keeps) _) stays) fun more => ?_
        refine .bind (.keep .expectLast stays) fun rbrack => .pure ?_
        rintro ts ⟨⟨drawn, t, last, isRbrack⟩, misfit⟩
        refine ⟨?_, fun _ => ⟨t, last, .inl isRbrack⟩⟩
        by_cases closed : x.isClosed
        · refine drawn.trim (.roomier (.behind lbrack) (misfit closed) ?_ ?_) fun _ => ?_
          all_goals simp [closed, Expr.nodesAll_eq_flatMap, Expr.wordsAll_eq_flatMap, or_left_comm]
        · simpa [closed, Expr.nodesAll_eq_flatMap, Expr.wordsAll_eq_flatMap] using drawn
      · exact (slice_takes (some first)).behind fun ts h => h.1
  split
  · refine .bind (.keep (.done ?_) stays) withFirst_takes
    simp
  · exact .bind (.keep (.map keeps.expr) stays) withFirst_takes

theorem callSuffix_takes {x : Expr} :
    Takes (Drawn s (acc.add x.nodes x.words)) K (callSuffix g x) (AtOperand s acc) := by
  have argument_takes {acc K} : Takes (Drawn s acc) K (argument g) fun a =>
      Drawn s (acc.add a.1.nodes a.1.words) :=
    .bind keeps.expr fun arg => .bind .acceptMark fun _ => .done rfl
  refine .bind .expectMark fun lparen => ?_
  refine .bind (.enclosed (.commaList argument_takes _)) fun args => ?_
  refine .bind .expectMark fun rparen => .operand ?_ Bool.false_ne_true
  simp [Expr.wordsAll_eq_flatMap, Expr.nodesAll_eq_flatMap, List.flatMap_map]

theorem suffix?_takes (x : Expr) : Takes (AtOperand s acc x) K (suffix? g x) fun o =>
    AtOperand s acc (o.getD x) := by
  have drawn : ∀ ts, AtOperand s acc x ts → Drawn s (acc.add x.nodes x.words) ts :=
    fun _ h => h.drawn
  refine .peek_bind fun k _ => ?_
  split
  · exact .bind ((dotSuffix_takes keeps).behind drawn) fun e => .pure fun _ holds => holds
  · exact .bind (bracketSuffix_takes keeps) fun e => .pure fun _ holds => holds
  · exact .bind ((callSuffix_takes keeps).behind drawn) fun e => .pure fun _ holds => holds
  · refine .level_bind fun level => ?_
    split
    · rename_i names
      split
      · rename_i type taken
        refine .bind (keeps.elements.behind fun ts h => h.drawnAtBrace names taken) fun e => ?_
        refine .pure fun ts drawn => Drawn.operand ?_ Bool.false_ne_true
        simpa [Expr.words, TypeExpr.wordsOpt] using drawn
      · exact .pure fun _ holds => holds
    · exact .pure fun _ holds => holds
  · exact .pure fun _ holds => holds

theorem suffixes_takes {x : Expr} : Takes (AtOperand s acc x) K (suffixes g x) fun e =>
    Drawn s (acc.add e.nodes e.words) :=
  (Takes.grow (suffix?_takes keeps) _ x).mono fun _ _ h => h.drawn

/-! ### Operators and literals -/

theorem unaryRule_takes : Takes (Drawn s acc) K (unaryRule g) fun e =>
    Drawn s (acc.add e.nodes e.words) := by
  refine .peek_bind fun k _ => .peekNext_bind fun k' => ?_
  split
  · exact .bind (typeOperand_takes keeps nofun) fun e => suffixes_takes keeps
  · split
    · exact .bind (.stepAt rfl) fun opPos => .bind keeps.unary fun e => .done rfl
    · exact .bind (operand_takes keeps) fun e => suffixes_takes keeps
  · exact .bind (operand_takes keeps) fun e => suffixes_takes keeps

theorem nextOperand?_takes {min : Nat} (left : Expr) :
    Takes (Drawn s (acc.add left.nodes left.words)) K (nextOperand? g min left) fun o =>
      Drawn s (acc.add (o.getD left).nodes ((o.getD left).words)) := by
  refine .peek_bind fun k _ => ?_
  split
  · split
    · split
      · exact .done rfl
      · refine .bind (.stepAt rfl) fun opPos => .bind (keeps.binary _) fun right => ?_
        exact .done (by simp)
    · exact .done rfl
  · exact .done rfl

theorem binaryRule_takes {min : Nat} :
    Takes (Drawn s acc) K (binaryRule g min) fun e => Drawn s (acc.add e.nodes e.words) :=
  .bind keeps.unary fun e =>
    .grow (A := fun e => Drawn s (acc.add e.nodes e.words)) (nextOperand?_takes keeps) _ e

theorem elementValue_takes : Takes (Drawn s acc) K (elementValue g) fun e =>
    Drawn s (acc.add e.nodes e.words) := by
  refine .looksAt_bind fun b => ?_
  split
  · refine .bind (keeps.elements.behind fun ts drawn => drawn.atBrace) fun e => .done ?_
    simp
  · exact keeps.expr

theorem element_takes : Takes (Drawn s acc) K (element g) fun e =>
    Drawn s (acc.add e.nodes e.words) := by
  refine .bind (elementValue_takes keeps) fun key => .bind .acceptMark fun o => ?_
  cases o with
  | none => exact .done rfl
  | some _ => exact .bind (elementValue_takes keeps) fun value => .done (by simp)

theorem elementsRule_takes : Takes (DrawnAtBrace s acc) K (elementsRule g) fun e =>
    Drawn s (acc.add (Expr.nodesAll e.list) (Expr.wordsAll e.list)) := by
  refine .bind .expectBrace fun lbrace => ?_
  refine .bind (.enclosed (.commaList (element_takes keeps) _)) fun list => ?_
  exact .bind .expectMark fun rbrace => .done (by
    rw [Expr.nodesAll_eq_flatMap, Expr.wordsAll_eq_flatMap])

end Rules

end Grammar

end GoLayout
