import GoLayout.Proofs.Order.Stmt
import GoLayout.Proofs.Order.Token
import GoLayout.Proofs.Words.File

/-!
The landmarks of a file as it is read: they follow one another through the source.
-/

namespace GoLayout

open Landmark (InOrder Begins begins_cons inOrder_append)

namespace Grammar

variable {P : Span → Prop} {ls : List Landmark} {K : TokenKind → Prop}

/-- Every phrase reads landmarks as its rule does, over readers that go one level less deep. -/
theorem readWithin_marks (depth : Nat) : (Readers.mk depth (readWithin depth)).Marks P := by
  induction depth with
  | zero =>
    exact ⟨.cutOff, fun _ => .cutOff, .cutOff, .cutOff, .cutOff, .cutOff⟩
  | succ depth ih =>
    exact ⟨typeRule_passes ih, fun _ => binaryRule_passes ih, unaryRule_passes ih,
      elementsRule_passes ih, stmtRule_passes ih, ifRule_passes ih⟩

section Rules

variable {g : Readers} (marks : g.Marks P)

include marks

theorem funcDecl_passes : Passes P (Passed P ls) K (funcDecl g) fun f =>
    Closed P (ls ++ f.landmarks) := by
  refine .lead_bind fun doc => .bind .expectKeyword fun funcPos => .looksAt_bind fun b => ?_
  extract_lets withReceiver
  have withReceiver_passes : ∀ receiver : Option FieldList,
      Passes P (Passed P (ls ++ [.token funcPos] ++ FieldList.landmarksOpt receiver)) anyKind
        (withReceiver receiver) fun f => Closed P (ls ++ f.landmarks) := by
    intro receiver
    refine .bind .ident fun name => .looksAt_bind fun b => ?_
    extract_lets withParams
    have withParams_passes : ∀ params : Option FieldList,
        Passes P (Passed P (ls ++ [.token funcPos] ++ FieldList.landmarksOpt receiver ++
          [name.landmark] ++ FieldList.landmarksOpt params)) anyKind (withParams params) fun f =>
          Closed P (ls ++ f.landmarks) := by
      intro params
      refine .bind (signature_passes marks) fun sig => .looksAt_bind fun b => ?_
      extract_lets withBody
      have withBody_passes : ∀ body : Option Block,
          Passes P (Passed P (ls ++ [.token funcPos] ++ FieldList.landmarksOpt receiver ++
            [name.landmark] ++ FieldList.landmarksOpt params ++ sig.landmarks ++
            body.toList.flatMap Block.landmarks)) anyKind (withBody body) fun f =>
            Closed P (ls ++ f.landmarks) := fun body =>
        .bind .terminator fun _ => .doneClosed (by simp [FuncDecl.landmarks])
      split
      · refine .bind (.map (marks.body.mono fun body _ passed => ?_)) withBody_passes
        simpa using passed
      · exact .bind (.done (by simp)) withBody_passes
    split
    · exact .bind (.map (typeParams_passes marks)) withParams_passes
    · exact .bind (.done (by simp [FieldList.landmarksOpt])) withParams_passes
  split
  · exact .bind (.map (valueParams_passes marks)) withReceiver_passes
  · exact .bind (.done (by simp [FieldList.landmarksOpt])) withReceiver_passes

omit marks in
/-- What is read from a keyword on keeps clear of the byte before the keyword. -/
theorem behindKeyword {α : Type} {k : Keyword} {r : Reader α} {own : α → List Landmark}
    (pos : α → Nat) (h : ∀ {ls}, Passes P (Passed P ls) (· = .keyword k) r fun a =>
      Closed P (ls ++ own a))
    (begins : ∀ a {lo hi}, InOrder (marksToken P) hi lo (own a) → Begins (own a) (pos a)) :
    Passes P (Closed P ls) (· = .keyword k) r fun a =>
      Closed P (ls ++ .place (.point (pos a - 1)) :: own a) := by
  rintro level c orderly kind ⟨-, behind⟩ a c' level' run
  obtain ⟨low, lt, before⟩ := behind k kind
  have marked : Passed P (ls ++ [.place (.point (low + 1))]) c :=
    (InOrder.mark before trivial (Nat.le_succ low)).widen (Nat.le_refl 0) lt
  have clear : ∀ here, Before P (ls ++ [.place (.point (low + 1))] ++ own a) here →
      Before P (ls ++ .place (.point (pos a - 1)) :: own a) here := by
    intro here passed
    obtain ⟨mid, first, rest⟩ := inOrder_append.mp passed
    obtain ⟨_, -, -, -, -, above⟩ := inOrder_append.mp first
    obtain ⟨le, rest⟩ := rest.from_begin (begins a rest)
    have above : low + 1 ≤ mid := above
    refine inOrder_append.mpr ⟨low, before, Nat.le_refl _, trivial, ?_, ?_⟩
    · exact Nat.le_sub_one_of_lt (Nat.le_trans above le)
    · exact rest.widen (Nat.sub_le _ 1) (Nat.le_refl here)
  obtain ⟨orderly', passed, keyword⟩ := h level c orderly kind marked a c' level' run
  refine ⟨orderly', clear _ passed, fun k' isKeyword => ?_⟩
  obtain ⟨low', lt', before'⟩ := keyword k' isKeyword
  exact ⟨low', lt', clear _ before'⟩

theorem decl?_passes : Passes P (Closed P ls) K (decl? g) fun o =>
    Closed P (ls ++ o.toList.flatMap Decl.landmarks) := by
  have group (kind : DeclKind) {k : Keyword} : Passes P (Closed P ls) (· = .keyword k)
      (do return some (Decl.gen (← genDecl g kind))) fun o =>
        Closed P (ls ++ o.toList.flatMap Decl.landmarks) :=
    .bind (behindKeyword GenDecl.pos ((genDecl_passes marks (isSolid_of_eq rfl)).mono
      fun _ _ ⟨_, closed⟩ => closed) fun d _ _ => d.begins) fun d => .doneClosed (by
        simp [Decl.landmarks, Decl.pos, GenDecl.pos])
  refine .bind (.skipSemis_closed _) fun _ => .peek_bind fun k _ => ?_
  split
  · exact .doneClosed (by simp)
  · exact group .imports
  · exact group .consts
  · exact group .vars
  · exact group .types
  · refine .bind (behindKeyword FuncDecl.pos (funcDecl_passes marks) ?_) fun f =>
      .doneClosed (by simp [Decl.landmarks, Decl.pos])
    exact fun f _ _ _ => begins_cons
  · exact .unexpected

theorem file_passes {comments : List CommentGroup} {lines : LineTable} :
    Passes P (Passed P ls) K (file g comments lines) fun f => Passed P (ls ++ f.landmarks) := by
  refine .lead_bind fun doc => .bind .expectKeyword fun packagePos => .bind .ident fun name => ?_
  refine .bind .terminator fun _ => ?_
  have decls_passes (rounds : Nat) {K : TokenKind → Prop} :
      Passes P (Closed P (ls ++ [.token packagePos] ++ [name.landmark])) K
        (many (decl? g) rounds) fun ds => Closed P (ls ++ [.token packagePos] ++ [name.landmark] ++
          ds.flatMap Decl.landmarks) := by
    refine ((Passes.collect (J := fun ds => Closed P (ls ++ [.token packagePos] ++
      [name.landmark] ++ ds.flatMap Decl.landmarks)) (fun ds => ?_) rounds []).behind ?_).mono ?_
    · refine (decl?_passes marks).mono fun o c closed => ?_
      cases o with
      | none => simpa using closed
      | some d => simpa using closed
    · intro c closed
      simpa using closed
    · exact fun ds c closed => closed
  refine .bind (decls_passes _) fun ds => .behind (.done ?_) fun c closed => closed.1
  simp [SourceFile.landmarks]

end Rules

/-- The tokens of a source are in order, and those with characters of their own are as every such
token of the source is. -/
theorem Input.orderly {src : String} {input : Input} (h : Input.ofSource src = .ok input)
    (holds : ∀ t ∈ (Scan.ofSource src).tokens, t.span.start < t.span.stop → P t.span) :
    input.cursor.Orderly P := by
  have tokens := Input.ofSource_tokens h
  have solid := @Scan.tokens_solid src
  refine ⟨⟨_, _, tokens, rfl, Scan.tokens_ne_eof src⟩, ?_, ?_, ?_, ?_, ?_⟩
  all_goals rw [tokens]
  · refine List.pairwise_append.mpr ⟨Scan.tokens_apart, List.pairwise_singleton _ _, ?_⟩
    intro t mem u last
    rw [List.mem_singleton.mp last]
    exact (solid t mem).1
  · refine List.pairwise_append.mpr ⟨Scan.tokens_rising.imp .inr, List.pairwise_singleton _ _, ?_⟩
    intro t mem u last
    rw [List.mem_singleton.mp last]
    exact .inl rfl
  · exact List.forall_mem_append.mpr ⟨Scan.tokens_forward, by simp [Span.point]⟩
  · refine List.forall_mem_append.mpr ⟨fun t mem isSolid => ?_, by simp [TokenKind.isSolid]⟩
    rcases (solid t mem).2 with wide | isAutomatic
    · exact ⟨wide, holds t mem wide⟩
    · have isSemi : t.kind = .mark .semi := by
        simpa using (Bool.and_eq_true_iff.mp isAutomatic).1
      rw [isSemi] at isSolid
      cases isSolid
  · exact List.forall_mem_append.mpr ⟨Scan.closing_narrow, by simp⟩

end Grammar

/-- The landmarks of a file follow one another through its source. -/
theorem SourceFile.inOrder_of_parse {src : String} {f : SourceFile} {P : Span → Prop}
    (h : SourceFile.parse src = .ok f)
    (holds : ∀ t ∈ (Scan.ofSource src).tokens, t.span.start < t.span.stop → P t.span) :
    InOrder (Grammar.marksToken P) src.utf8ByteSize 0 f.landmarks := by
  obtain ⟨input, read, run⟩ := exists_of_bind_eq_ok h
  have orderly := Grammar.Input.orderly read holds
  obtain ⟨c', level', fileRead⟩ := Grammar.Input.of_run_eq_ok run
  have passes : Grammar.Passes P (Grammar.Passed P []) Grammar.anyKind
      (Grammar.file (Grammar.readers input.cursor.rest.length) input.comments input.lines) fun f =>
        Grammar.Passed P ([] ++ f.landmarks) := Grammar.file_passes (Grammar.readWithin_marks _)
  have takes : Grammar.Takes (Grammar.Drawn .outer .empty) Grammar.anyKind
      (Grammar.file (Grammar.readers input.cursor.rest.length) input.comments input.lines) fun f =>
        Grammar.Drawn .outer (Grammar.Account.empty.add f.nodes f.words) :=
    Grammar.file_takes (Grammar.readWithin_keeps _)
  obtain ⟨-, passed⟩ :=
    passes 0 input.cursor orderly trivial (Nat.zero_le _) f c' level' fileRead
  obtain ⟨-, before, parts, -⟩ := takes 0 input.cursor orderly.ended trivial f c' level' fileRead
  have here : c'.current.toToken ∈ input.cursor.tokens := by
    rw [parts]
    exact List.mem_append_right _ List.mem_cons_self
  refine InOrder.widen passed (Nat.le_refl 0) (Nat.le_trans (orderly.forward _ here) ?_)
  rw [Grammar.Input.ofSource_tokens read] at here
  rcases List.mem_append.mp here with mem | last
  · exact (Scan.tokens_solid _ mem).1
  · rw [List.mem_singleton.mp last]
    exact Nat.le_refl _

end GoLayout
