import GoLayout.Proofs.Settle.Block
import GoLayout.Tree.Node

/-!
What holds of the nodes of a tidied tree in its line table: literals are laid out, an error is
checked next to where it is defined, and the bodies of functions have no blank lines at their ends.
Declarations that have become assignments are the exception. A block sees them as they were written,
so none of them defines an error yet, and they end with their parentheses. Where these are dropped
and the lines stay, the lines are blank.
-/

namespace GoLayout

variable {n : Nat}

/-- What tidying goes by: the options, the comments, and which declarations are statements. -/
structure Setting where
  extra : Bool
  comments : List CommentGroup
  Local : GenDecl → Prop

/-- A declaration among the statements consists of one spec, which begins here. -/
def Setting.Declares (k : Setting) (p : Nat) : Prop :=
  ∃ d spec, k.Local d ∧ d.specs = [spec] ∧ spec.pos = p

/-- An error is checked no later than on the line below its definition, unless that was written as a
declaration. -/
def Stmt.ErrsChecked (k : Setting) (t : LineTable) (ss : List Stmt) : Prop :=
  ss.IsChain fun a b => a.definesErr → b.checksErr →
    t.line b.pos ≤ t.line (a.stop - 1) + 1 ∨ k.Declares a.pos

/-- Variables were declared by one spec among the statements. -/
def Setting.Varies (k : Setting) (d : GenDecl) (spec : Spec) : Prop :=
  k.Local d ∧ d.kind = .vars ∧ d.specs = [spec]

/-- Between the braces of a block and what stands next to them are no blank lines, unless these are
variables of one spec that had their keyword on a line above, in no parentheses or in parentheses
with a doc comment, or that had the closing parenthesis of a group with a doc comment on a line
below. -/
structure Block.Edged (k : Setting) (t : LineTable) (b : Block) : Prop where
  top : ∀ e ∈ b.extent? k.comments, t.line e.1 ≤ t.line b.lbrace.start + 1 ∨
    ∃ first ∈ b.stmts.head?, ∃ d spec, k.Varies d spec ∧ spec.pos = first.pos ∧
      (d.rparen = none ∨ d.doc.isSome) ∧ t.line d.pos < t.line e.1
  bottom : ∀ e ∈ b.extent? k.comments, t.line b.rbrace.start ≤ t.line e.2 + 1 ∨
    ∃ last ∈ b.stmts.getLast?, ∃ d spec, k.Varies d spec ∧ spec.stop = last.stop ∧
      d.doc.isSome ∧ t.line e.2 < t.line d.stop

structure Block.Tidy (k : Setting) (t : LineTable) (role : BlockRole) (b : Block) : Prop where
  errs : k.extra → Stmt.ErrsChecked k t b.stmts
  edges : role = .body → b.Edged k t

/-- What holds of a node for the parts it has itself. -/
def Node.Tidy (k : Setting) (t : LineTable) : Node → Prop
  | .expr (.composite _ lbrace elements rbrace) => Expr.LaidOut t lbrace rbrace elements
  | .expr (.func _ _ body) => body.Tidy k t .body
  | .func f => ∀ body ∈ f.body, body.Tidy k t .body
  | .stmt (.block body) | .stmt (.ifElse _ _ _ body _) | .stmt (.switch _ _ _ body)
  | .stmt (.typeSwitch _ _ _ body) | .stmt (.select _ body) | .stmt (.forLoop _ _ _ _ body)
  | .stmt (.range _ _ _ _ _ _ body) => body.Tidy k t .inner
  | .stmt (.caseClause _ _ _ body) | .stmt (.commClause _ _ _ body) =>
    k.extra → Stmt.ErrsChecked k t body
  | _ => True

/-- All of the nodes are tidy. -/
def AllTidy (k : Setting) (t : LineTable) (ms : List Node) : Prop := ∀ m ∈ ms, m.Tidy k t

namespace AllTidy

variable {k : Setting} {t : LineTable} {m : Node} {ms ms' : List Node}

theorem nil : AllTidy k t [] := nofun

theorem node (here : m.Tidy k t) (parts : AllTidy k t ms) : AllTidy k t (m :: ms) :=
  List.forall_mem_cons.mpr ⟨here, parts⟩

theorem append (first : AllTidy k t ms) (second : AllTidy k t ms') : AllTidy k t (ms ++ ms') :=
  List.forall_mem_append.mpr ⟨first, second⟩

end AllTidy

/-! ### Nodes before and after tidying -/

/-- Whether an expression compares `err` to `nil`. -/
def Expr.comparesErr : Expr → Bool
  | .binary left .ne _ right => left.isName "err" && right.isName "nil"
  | _ => false

/-- A tidied expression stands where it stood before, and the rules see the same in it. -/
structure Expr.Like (e e' : Expr) : Prop where
  place : e'.place = e.place
  name : ∀ text, e'.isName text = e.isName text
  check : e'.comparesErr = e.comparesErr

/-- A tidied type stands where it stood before. -/
structure TypeExpr.Like (t t' : TypeExpr) : Prop where
  pos : t'.pos = t.pos
  stop : t'.stop = t.stop

structure Field.Like (f f' : Field) : Prop where
  pos : f'.pos = f.pos
  stop : f'.stop = f.stop

/-- Without brackets there is a single field, also when fields have been merged. -/
structure FieldList.Like (l l' : FieldList) : Prop where
  brackets : l'.brackets = l.brackets
  single : l.brackets = none → ∃ f f', l.fields = [f] ∧ l'.fields = [f'] ∧ f.Like f'

structure Signature.Like (s s' : Signature) : Prop where
  pos : s'.pos = s.pos
  stop : s'.stop = s.stop

/-- A tidied spec stands where it stood before. If it declares values, it has names. -/
structure Spec.Like (s s' : Spec) : Prop where
  pos : s'.pos = s.pos
  stop : s'.stop = s.stop
  named : ∀ doc type assign values comment, s' ≠ .valueSpec doc [] type assign values comment

/-- Where the contents of a declaration of one spec begin: with a comment behind its keyword, or with
the spec. -/
def GenDecl.lead (comments : List CommentGroup) (d : GenDecl) (spec : Spec) : Nat :=
  (CommentGroup.between comments d.kwPos.start spec.pos).head?.elim spec.pos CommentGroup.start

/-- No line is broken around the only spec of a declaration. -/
structure GenDecl.Joined (comments : List CommentGroup) (t : LineTable) (d : GenDecl) (spec : Spec) :
    Prop where
  front : ¬ t.Breaks (d.kwPos.start + 1) (d.lead comments spec)
  behind : ∀ rparen ∈ d.rparen, ¬ t.Breaks (spec.stop + 1) rparen.start

/-- What flattening leaves of the keyword and the closing parenthesis of a declaration. Around a
single spec of variables it leaves parentheses only if they have a doc comment, and without them it
joins the lines. -/
def GenDecl.Flattened (comments : List CommentGroup) (t : LineTable) (d : GenDecl) (kwPos : Span)
    (rparen : Option Span) : Prop :=
  (kwPos = d.kwPos ∧ rparen = d.rparen ∧ ∀ spec, d.kind = .vars → d.specs = [spec] →
    d.lparen = none ∨ d.rparen = none ∨ d.doc.isSome) ∨
  ∃ spec, d.specs = [spec] ∧ rparen = none ∧ (kwPos = d.kwPos ∨ kwPos = .point spec.pos) ∧
    d.Joined comments t spec

/-- A tidied declaration has its specs. It may have lost its parentheses. -/
structure GenDecl.Like (comments : List CommentGroup) (t : LineTable) (d d' : GenDecl) : Prop where
  kind : d'.kind = d.kind
  specs : List.Forall₂ Spec.Like d.specs d'.specs
  edges : d.Flattened comments t d'.kwPos d'.rparen

/-- A declaration among the statements has parentheses in pairs, of one byte each, and ends with a
token, behind its specs. -/
structure Setting.Holds (k : Setting) (O : Nat → Prop) (d : GenDecl) : Prop where
  isLocal : k.Local d
  paired : d.lparen = none → d.rparen = none
  reaches : ∀ spec ∈ d.specs, spec.pos ≤ d.stop
  narrow : d.Narrow
  clear : ¬ O d.stop

/-- Of a declaration among the statements the spec may be all that is left. Then lines are joined,
or it declared variables and flattening left it as it was. -/
structure Setting.Bares (k : Setting) (O : Nat → Prop) (t : LineTable) (d : GenDecl) (spec : Spec) :
    Prop extends k.Holds O d where
  single : d.specs = [spec]
  lines : (d.kind = .vars ∧ (d.rparen = none ∨ d.doc.isSome)) ∨ d.Joined k.comments t spec

/-- The end of a statement stays, or it was that of a declaration and is that of the spec now. -/
def Setting.Closes (k : Setting) (O : Nat → Prop) (t : LineTable) (p p' : Nat) : Prop :=
  p' = p ∨ ∃ d spec, k.Bares O t d spec ∧ d.stop = p ∧ spec.stop = p'

/-- A tidied statement stands where it stood before, but for declarations in it, and the rules see
the same in it, but for a declaration that has become an assignment. -/
structure Stmt.Like (O : Nat → Prop) (k : Setting) (t : LineTable) (s s' : Stmt) : Prop where
  pos : s'.pos = s.pos ∨ ∃ d spec, k.Bares O t d spec ∧ s = .decl d ∧ spec.pos = s'.pos
  stop : k.Closes O t s.stop s'.stop
  defines : s'.definesErr → s.definesErr ∧ s'.stop = s.stop ∨ k.Declares s'.pos
  checks : s'.checksErr → s.checksErr ∧ s'.pos = s.pos

theorem Expr.Like.pos {e e' : Expr} (h : e.Like e') : e'.pos = e.pos := congrArg Prod.fst h.place

theorem Expr.Like.stop {e e' : Expr} (h : e.Like e') : e'.stop = e.stop := congrArg (·.2.1) h.place

theorem Expr.Like.refl (e : Expr) : e.Like e := ⟨rfl, fun _ => rfl, rfl⟩

section Lists

variable {α : Type} {L : α → α → Prop} {as as' : List α}

theorem forall₂_getLast? (h : List.Forall₂ L as as') : ∀ a' ∈ as'.getLast?, ∃ a ∈ as.getLast?, L a a' := by
  induction h with
  | nil => nofun
  | @cons a a' rest rest' alike behind ih =>
    cases behind with
    | nil =>
      rintro _ ⟨⟩
      exact ⟨a, rfl, alike⟩
    | cons alike' behind =>
      intro b' last
      rw [List.getLast?_cons_cons] at last ⊢
      exact ih b' last

theorem forall₂_head? (h : List.Forall₂ L as as') : ∀ a' ∈ as'.head?, ∃ a ∈ as.head?, L a a' := by
  cases h with
  | nil => nofun
  | cons alike _ =>
    rintro _ ⟨⟩
    exact ⟨_, rfl, alike⟩

theorem isChain_of_forall₂ {R R' : α → α → Prop} (chain : as.IsChain R) (h : List.Forall₂ L as as')
    (carries : ∀ a a' b b', L a a' → L b b' → R a b → R' a' b') : as'.IsChain R' := by
  induction h with
  | nil => exact .nil
  | cons alike behind ih =>
    cases behind with
    | nil => exact .singleton _
    | cons alike' behind' =>
      obtain ⟨here, rest⟩ := List.isChain_cons_cons.mp chain
      exact .cons_cons (carries _ _ _ _ alike alike' here) (ih rest)

end Lists

theorem Expr.places_of_like {es es' : List Expr} (h : List.Forall₂ Expr.Like es es') :
    es'.map Expr.place = es.map Expr.place := by
  induction h with
  | nil => rfl
  | cons alike _ ih => rw [List.map_cons, List.map_cons, alike.place, ih]

variable {k : Setting} {t : LineTable} {O : Nat → Prop} {ss ss' : List Stmt}

theorem Stmt.errsChecked_of_checked (cover : t.Over n)
    (alike : List.Forall₂ (Stmt.Like O k t) ss ss') (checked : Stmt.Checked t ss) :
    Stmt.ErrsChecked k t ss' := by
  refine isChain_of_forall₂ checked alike ?_
  intro a a' b b' alike alike' once defines checks
  obtain ⟨checks, pos⟩ := alike'.checks checks
  rcases alike.defines defines with ⟨defines, stop⟩ | declared
  · obtain ⟨positive, once⟩ := once defines checks
    refine .inl ?_
    rw [pos, stop]
    exact cover.line_le_pred_succ positive once
  · exact .inr declared

/-! ### Declarations of which a spec is left -/

theorem GenDecl.stop_of_single {d : GenDecl} {spec : Spec} (single : d.specs = [spec])
    (noClose : d.rparen = none) : d.stop = spec.stop := by
  simp [GenDecl.stop, noClose, single]

/-- Joined lines have the end of the declaration on that of the spec, since the closing parenthesis
has one byte, behind which no line starts. -/
theorem Setting.Bares.line_stop_le {d : GenDecl} {spec : Spec} (h : k.Bares O t d spec)
    (cover : t.Over n) (clean : d.stop ∈ t.starts → O d.stop) (joined : d.Joined k.comments t spec) :
    t.line d.stop ≤ t.line spec.stop := by
  cases isRight : d.rparen with
  | none => rw [GenDecl.stop_of_single h.single isRight]
  | some rparen =>
    have stop : d.stop = rparen.stop := by simp [GenDecl.stop, isRight]
    have wide := h.narrow rparen isRight
    by_contra apart
    obtain ⟨s, mem, low, high⟩ := cover.line_lt_iff.mp (Nat.not_le.mp apart)
    rcases Nat.lt_or_eq_of_le high with before | rfl
    · exact joined.behind rparen isRight ⟨s, mem, low, by omega⟩
    · exact h.clear (clean mem)

namespace Stmt.Like

variable {s s' : Stmt} {p : Nat}

/-- No offset up to where a tidied statement and the comments around it begin is on a line below the
one where the statement began, but for variables that a line was kept of. -/
theorem line_pos_le {lo hi : Nat} (h : Stmt.Like O k t s s') (cover : t.Over n)
    (rising : CommentGroup.Rising k.comments) (low : lo ≤ s.pos) (high : s.stop ≤ hi)
    (le : p ≤ s'.pos) (behind : ∀ g ∈ CommentGroup.between k.comments lo hi, p ≤ g.start) :
    t.line p ≤ t.line s.pos ∨ ∃ d spec, k.Varies d spec ∧ spec.pos = s'.pos ∧
      (d.rparen = none ∨ d.doc.isSome) ∧ t.line d.pos < t.line p := by
  rcases h.pos with same | ⟨d, spec, bares, rfl, begins⟩
  · exact .inl (cover.ordered.line_mono (same ▸ le))
  · rcases bares.lines with ⟨vars, kept⟩ | joined
    · rcases Nat.lt_or_ge (t.line d.pos) (t.line p) with lt | ge
      · exact .inr ⟨d, spec, ⟨bares.isLocal, vars, bares.single⟩, begins, kept, lt⟩
      · exact .inl ge
    · have upTo : p ≤ d.lead k.comments spec := by
        unfold GenDecl.lead
        cases isFirst : (CommentGroup.between k.comments d.kwPos.start spec.pos).head? with
        | none => exact begins ▸ le
        | some g =>
          obtain ⟨inComments, from', before⟩ := rising.mem_between.mp (List.mem_of_head? isFirst)
          refine behind g (rising.mem_between.mpr ⟨inComments, Nat.le_trans low from', ?_⟩)
          refine Nat.lt_of_lt_of_le before (Nat.le_trans (bares.reaches spec ?_) high)
          exact List.mem_of_mem_head? (bares.single ▸ rfl)
      have front : ¬ t.line d.kwPos.start < t.line (d.lead k.comments spec) :=
        fun lt => joined.front (cover.line_lt_iff.mp lt)
      exact .inl (Nat.le_trans (cover.ordered.line_mono upTo) (Nat.not_lt.mp front))

/-- A statement ended no lower than any offset behind it is once it is tidied, but for variables
that a line was kept of. -/
theorem line_stop_le (h : Stmt.Like O k t s s') (cover : t.Over n)
    (clean : s.stop ∈ t.starts → O s.stop) (le : s'.stop ≤ p) :
    t.line s.stop ≤ t.line p ∨ ∃ d spec, k.Varies d spec ∧ spec.stop = s'.stop ∧
      d.doc.isSome ∧ t.line p < t.line d.stop := by
  have mono := cover.ordered.line_mono le
  rcases h.stop with same | ⟨d, spec, bares, ends, ends'⟩
  · exact .inl (same ▸ mono)
  · rw [← ends] at clean ⊢
    rw [← ends'] at mono
    rcases bares.lines with ⟨vars, noClose | documented⟩ | joined
    · rw [GenDecl.stop_of_single bares.single noClose]
      exact .inl mono
    · rcases Nat.lt_or_ge (t.line p) (t.line d.stop) with lt | ge
      · exact .inr ⟨d, spec, ⟨bares.isLocal, vars, bares.single⟩, ends', documented, lt⟩
      · exact .inl ge
    · exact .inl (Nat.le_trans (bares.line_stop_le cover clean joined) mono)

end Stmt.Like

namespace Block

variable {lbrace rbrace : Span} {comments : List CommentGroup}

theorem commentsExtent?_le (rising : CommentGroup.Rising comments) {b : Block} {e : Nat × Nat}
    (isExtent : e ∈ b.commentsExtent? comments) :
    ∀ g ∈ CommentGroup.between comments b.lbrace.start b.rbrace.start, e.1 ≤ g.start := by
  obtain ⟨first, isFirst, behind⟩ := Option.bind_eq_some_iff.mp isExtent
  obtain ⟨last, -, ends⟩ := Option.bind_eq_some_iff.mp behind
  obtain rfl := Option.some.inj ends
  exact rising.start_le isFirst

theorem between_of_commentsExtent? {b : Block} (noExtent : b.commentsExtent? comments = none) :
    CommentGroup.between comments b.lbrace.start b.rbrace.start = [] := by
  unfold commentsExtent? at noExtent
  generalize CommentGroup.between .. = groups at noExtent
  cases groups with
  | nil => rfl
  | cons g rest => simp [List.getLast?_cons] at noExtent

/-- In two blocks with the same braces the contents begin and end alike where the comments reach
further than the statements, and with the statements elsewhere. -/
theorem extents_of_stmts (rising : CommentGroup.Rising comments) {pos stop pos' stop' : Nat}
    (own : stmtsExtent? ⟨lbrace, ss, rbrace⟩ = some (pos, stop))
    (own' : stmtsExtent? ⟨lbrace, ss', rbrace⟩ = some (pos', stop')) :
    ∀ e' ∈ extent? comments ⟨lbrace, ss', rbrace⟩, ∃ e ∈ extent? comments ⟨lbrace, ss, rbrace⟩,
      (e'.1 ≤ e.1 ∨ pos = e.1 ∧ e'.1 ≤ pos' ∧
        ∀ g ∈ CommentGroup.between comments lbrace.start rbrace.start, e'.1 ≤ g.start) ∧
      (e.2 ≤ e'.2 ∨ stop = e.2 ∧ stop' ≤ e'.2) := by
  intro e' isExtent
  have inner : commentsExtent? comments ⟨lbrace, ss', rbrace⟩ =
      commentsExtent? comments ⟨lbrace, ss, rbrace⟩ := rfl
  have noComments := @between_of_commentsExtent? comments ⟨lbrace, ss, rbrace⟩
  have least (e : Nat × Nat) := @commentsExtent?_le _ rising ⟨lbrace, ss, rbrace⟩ e
  unfold extent? at isExtent ⊢
  rw [own', inner] at isExtent
  rw [own]
  generalize commentsExtent? comments ⟨lbrace, ss, rbrace⟩ = inside at isExtent noComments least ⊢
  cases inside with
  | none =>
    obtain rfl := Option.some.inj isExtent
    refine ⟨_, rfl, .inr ⟨rfl, Nat.le_refl _, ?_⟩, .inr ⟨rfl, Nat.le_refl _⟩⟩
    intro g mem
    rw [noComments rfl] at mem
    cases mem
  | some e =>
    obtain rfl := Option.some.inj isExtent
    refine ⟨_, rfl, ?_, ?_⟩
    · rcases Nat.le_total e.1 pos with low | high
      · exact .inl (Nat.le_trans (Nat.min_le_right ..) (Nat.le_min.mpr ⟨low, Nat.le_refl _⟩))
      · refine .inr ⟨(Nat.min_eq_left high).symm, Nat.min_le_left .., fun g mem => ?_⟩
        exact Nat.le_trans (Nat.min_le_right ..) (least e rfl g mem)
    · rcases Nat.le_total stop e.2 with low | high
      · exact .inl (Nat.le_trans (Nat.max_le.mpr ⟨low, Nat.le_refl _⟩) (Nat.le_max_right ..))
      · exact .inr ⟨(Nat.max_eq_left high).symm, Nat.le_max_left ..⟩

/-- The contents of a tidied block reach as far as those of the block before, but for declarations
next to its braces. -/
theorem extent?_of_like (rising : CommentGroup.Rising comments)
    (alike : List.Forall₂ (Stmt.Like O k t) ss ss') :
    ∀ e' ∈ extent? comments ⟨lbrace, ss', rbrace⟩, ∃ e ∈ extent? comments ⟨lbrace, ss, rbrace⟩,
      (e'.1 ≤ e.1 ∨ ∃ first ∈ ss.head?, ∃ first' ∈ ss'.head?, Stmt.Like O k t first first' ∧
        first.pos = e.1 ∧ e'.1 ≤ first'.pos ∧
          ∀ g ∈ CommentGroup.between comments lbrace.start rbrace.start, e'.1 ≤ g.start) ∧
        (e.2 ≤ e'.2 ∨ ∃ last ∈ ss.getLast?, ∃ last' ∈ ss'.getLast?, Stmt.Like O k t last last' ∧
          last.stop = e.2 ∧ last'.stop ≤ e'.2) := by
  intro e' isExtent'
  cases isFirst' : ss'.head? with
  | none =>
    obtain rfl := List.head?_eq_none_iff.mp isFirst'
    cases alike
    exact ⟨e', isExtent', .inl (Nat.le_refl _), .inl (Nat.le_refl _)⟩
  | some first' =>
    obtain ⟨first, isFirst, likeFirst⟩ := forall₂_head? alike first' isFirst'
    obtain ⟨rest', rfl⟩ := List.head?_eq_some_iff.mp isFirst'
    have isLast' := List.getLast?_eq_some_getLast (List.cons_ne_nil first' rest')
    generalize (first' :: rest').getLast _ = last' at isLast'
    obtain ⟨last, isLast, likeLast⟩ := forall₂_getLast? alike last' isLast'
    have own : stmtsExtent? ⟨lbrace, ss, rbrace⟩ = some (first.pos, last.stop) := by
      simp [stmtsExtent?, Option.mem_def.mp isFirst, Option.mem_def.mp isLast]
    have own' : stmtsExtent? ⟨lbrace, first' :: rest', rbrace⟩ = some (first'.pos, last'.stop) := by
      simp [stmtsExtent?, isLast']
    obtain ⟨e, isExtent, top, bottom⟩ := extents_of_stmts rising own own' e' isExtent'
    refine ⟨e, isExtent, ?_, ?_⟩
    · rcases top with le | ⟨begins, le, behind⟩
      · exact .inl le
      · exact .inr ⟨first, isFirst, first', rfl, likeFirst, begins, le, behind⟩
    · rcases bottom with le | ⟨ends, le⟩
      · exact .inl le
      · exact .inr ⟨last, isLast, last', isLast', likeLast, ends, le⟩

/-- A trimmed block is still so once its statements are tidied, but for variables that lines were
kept of. -/
theorem edged_of_trimmed (cover : t.Over n) (rising : CommentGroup.Rising k.comments)
    (row : InRow ⟨lbrace, ss, rbrace⟩) (clean : t.Clean O (Beside ⟨lbrace, ss, rbrace⟩))
    (alike : List.Forall₂ (Stmt.Like O k t) ss ss')
    (trimmed : Trimmed t k.comments ⟨lbrace, ss, rbrace⟩) : Edged k t ⟨lbrace, ss', rbrace⟩ where
  top := by
    intro e' isExtent'
    obtain ⟨e, isExtent, pos, -⟩ := extent?_of_like rising alike e' isExtent'
    have near : t.line e.1 ≤ t.line lbrace.start + 1 := cover.line_le_succ (trimmed e isExtent).1
    rcases pos with le | ⟨first, isFirst, first', isFirst', like, begins, le, behind⟩
    · exact .inl (Nat.le_trans (cover.ordered.line_mono le) near)
    · obtain ⟨low, high⟩ := Span.InRow.between row _ (List.mem_map_of_mem (List.mem_of_head? isFirst))
      rcases like.line_pos_le cover rising (Nat.le_of_succ_le low) high le behind with le | kept
      · exact .inl (Nat.le_trans le (begins ▸ near))
      · exact .inr ⟨first', isFirst', kept⟩
  bottom := by
    intro e' isExtent'
    obtain ⟨e, isExtent, -, stop⟩ := extent?_of_like rising alike e' isExtent'
    have near : t.line rbrace.start ≤ t.line e.2 + 1 := cover.line_le_succ (trimmed e isExtent).2
    rcases stop with le | ⟨last, isLast, last', isLast', like, ends, le⟩
    · exact .inl (Nat.le_trans near (Nat.succ_le_succ (cover.ordered.line_mono le)))
    · have mem := List.mem_map_of_mem (f := Stmt.extentSpan) (List.mem_of_getLast? isLast)
      have clear : last.stop ∈ t.starts → O last.stop := fun isStart =>
        clean _ isStart (Span.InRow.beside_stop_of_mem row _ mem)
      rcases like.line_stop_le cover clear le with le | kept
      · exact .inl (Nat.le_trans near (Nat.succ_le_succ (ends ▸ le)))
      · exact .inr ⟨last', isLast', kept⟩

end Block

/-! ### Declarations that become assignments -/

theorem GenDecl.Like.stop {comments : List CommentGroup} {d d' : GenDecl} (h : d.Like comments t d') :
    d'.stop = d.stop ∨
      ∃ spec, d.specs = [spec] ∧ d.Joined comments t spec ∧ spec.stop = d'.stop := by
  rcases h.edges with ⟨kwPos, rparen, -⟩ | ⟨spec, single, rparen, -, joined⟩
  · refine .inl ?_
    have last : ∀ (x : Nat), d'.specs.getLast?.elim x Spec.stop = d.specs.getLast?.elim x Spec.stop := by
      intro x
      cases isLast' : d'.specs.getLast? with
      | none =>
        have none : d.specs = [] := List.length_eq_zero_iff.mp
          (h.specs.length_eq.trans (by simp [List.getLast?_eq_none_iff.mp isLast']))
        simp [none]
      | some last' =>
        obtain ⟨last, isLast, alike⟩ := forall₂_getLast? h.specs last' isLast'
        rw [Option.mem_def.mp isLast]
        exact alike.stop
    unfold GenDecl.stop
    rw [rparen, kwPos]
    cases d.rparen with
    | some _ => rfl
    | none => exact last _
  · refine .inr ⟨spec, single, joined, ?_⟩
    have specs := h.specs
    rw [single] at specs
    obtain ⟨spec', rest, alike, none, same⟩ := List.forall₂_cons_left_iff.mp specs
    cases none
    rw [GenDecl.stop_of_single same rparen]
    exact alike.stop.symm

theorem GenDecl.Like.pos {comments : List CommentGroup} {d d' : GenDecl} (h : d.Like comments t d') :
    d'.pos = d.pos ∨
      ∃ spec, d.specs = [spec] ∧ d.Joined comments t spec ∧ spec.pos = d'.pos := by
  unfold GenDecl.pos
  rcases h.edges with ⟨kwPos, -⟩ | ⟨spec, single, -, kwPos | kwPos, joined⟩
  · exact .inl (congrArg Span.start kwPos)
  · exact .inl (congrArg Span.start kwPos)
  · exact .inr ⟨spec, single, joined, (congrArg Span.start kwPos).symm⟩

open Tidy in
theorem Stmt.like_assignment {d d' : GenDecl} (holds : k.Holds O d) (h : d.Like k.comments t d') :
    Stmt.Like O k t (.decl d) (assignment (.decl d')) := by
  unfold assignment
  split
  · rename_i doc names assign v vs comment _ same
    cases same
    obtain ⟨spec, rest, alike, none, single⟩ := List.forall₂_cons_right_iff.mp h.specs
    cases none
    obtain ⟨name, names, rfl⟩ := List.exists_cons_of_ne_nil (l := names) (by
      rintro rfl
      exact alike.named _ _ _ _ _ rfl)
    have bares : k.Bares O t d spec := by
      refine ⟨holds, single, ?_⟩
      rcases h.edges with ⟨-, -, kept⟩ | ⟨spec', single', -, -, joined⟩
      · have vars : d.kind = .vars := h.kind.symm
        refine .inl ⟨vars, ?_⟩
        rcases kept spec vars single with noOpen | noClose | documented
        · exact .inl (holds.paired noOpen)
        · exact .inl noClose
        · exact .inr documented
      · obtain ⟨rfl, -⟩ := List.cons_eq_cons.mp (single.symm.trans single')
        exact .inr joined
    have isLast := List.getLast?_eq_some_getLast (List.cons_ne_nil v vs)
    have pos : spec.pos = name.span.start := alike.pos.symm
    have stop : spec.stop = ((v :: vs).getLast (List.cons_ne_nil v vs)).stop := by
      rw [← alike.stop, Spec.stop_of_values isLast]
    have begins : k.Declares name.span.start := ⟨d, spec, holds.isLocal, single, pos⟩
    refine ⟨.inr ⟨d, spec, bares, rfl, pos⟩, .inr ⟨d, spec, bares, rfl, ?_⟩, fun _ => .inr begins,
      nofun⟩
    rw [stop, Stmt.stop, isLast]
    rfl
  · refine ⟨?_, ?_, nofun, nofun⟩
    · exact h.pos.imp_right fun ⟨spec, single, joined, pos⟩ =>
        ⟨d, spec, ⟨holds, single, .inr joined⟩, rfl, pos⟩
    · exact h.stop.imp_right fun ⟨spec, single, joined, stop⟩ =>
        ⟨d, spec, ⟨holds, single, .inr joined⟩, rfl, stop⟩

/-- The nodes of an assignment that was a declaration are as tidy as those of the declaration. -/
theorem AllTidy.assignment {s : Stmt} (h : AllTidy k t s.nodes) :
    AllTidy k t (Tidy.assignment s).nodes := by
  unfold Tidy.assignment
  split
  · rename_i names assign v vs _ _
    have idents (names : List Ident) : AllTidy k t (Expr.nodesAll (names.map .ident)) := by
      induction names with
      | nil => exact .nil
      | cons name names ih => exact .node trivial ih
    have values : AllTidy k t (Expr.nodesAll (v :: vs)) := fun m mem =>
      h m (List.mem_cons_of_mem _ (List.mem_cons_of_mem _ (List.mem_append_left _ mem)))
    exact .node trivial (.append (idents names) values)
  · exact h

end GoLayout
