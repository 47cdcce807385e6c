import GoLayout.Grammar.File
import GoLayout.Proofs.Comment.Attach
import GoLayout.Proofs.Grammar.Stmt

/-!
Files as they are read. Every token in the tree of a file lies within its source, its comments end
there, its line table is that of the source, and its import declarations hold imports only.
-/

namespace GoLayout

/-- A declaration as it is read: its tokens lie where `P` says, and imports stand among imports. -/
def Decl.Read (P : Span → Prop) : Decl → Prop
  | .gen d => d.Everywhere P ∧ d.WellKinded
  | .func f => f.Everywhere P

theorem Decl.Read.everywhere {P : Span → Prop} {d : Decl} (h : d.Read P) : d.Everywhere P := by
  cases d with
  | gen d => exact h.1
  | func f => exact h

namespace Grammar

variable {P : Span → Prop} {K : TokenKind → Prop}

/-- Every phrase is read as its rule says, by readers that go one level less deep. -/
theorem readWithin_meets (pointed : ∀ s, P s → P (.point s.start)) (depth : Nat) (p : Phrase) :
    Meets P K (readWithin depth p) (p.Everywhere P) := by
  induction depth generalizing p K with
  | zero =>
    -- A reader that may go no deeper fails, so what it reads is never looked at.
    exact .cutOff
  | succ depth ih =>
    have sound : Readers.Sound P ⟨depth, readWithin depth⟩ := fun p _ => ih p
    cases p with
    | type => exact typeRule_meets sound
    | binary min => exact binaryRule_meets sound
    | unary => exact unaryRule_meets sound
    | elements => exact elementsRule_meets sound
    | stmt => exact stmtRule_meets sound pointed
    | ifStmt => exact ifRule_meets sound pointed

theorem readers_sound (pointed : ∀ s, P s → P (.point s.start)) (tokens : Nat) :
    (readers tokens).Sound P := fun p _ => readWithin_meets pointed _ p

section Rules

variable {g : Readers} (sound : g.Sound P)

include sound

theorem funcDecl_meets : Meets P K (funcDecl g) (FuncDecl.Everywhere P) := by
  refine .lead_bind fun doc => .bind .expectKeyword fun funcPos here => ?_
  refine .looksAt_bind fun b => ?_
  extract_lets withReceiver
  have withReceiver_meets : ∀ receiver : Option FieldList, FieldList.EverywhereOpt P receiver →
      Meets P anyKind (withReceiver receiver) (FuncDecl.Everywhere P) := by
    intro receiver ofReceiver
    refine .bind .ident fun name ofName => .looksAt_bind fun b => ?_
    extract_lets withParams
    have withParams_meets : ∀ params : Option FieldList, FieldList.EverywhereOpt P params →
        Meets P anyKind (withParams params) (FuncDecl.Everywhere P) := by
      intro params ofParams
      refine .bind (signature_meets sound) fun sig ofSig => .looksAt_bind fun b => ?_
      extract_lets withBody
      have withBody_meets : ∀ body : Option Block, (∀ b ∈ body, b.Everywhere P) →
          Meets P anyKind (withBody body) (FuncDecl.Everywhere P) := fun body ofBody =>
        .bind .terminator fun _ _ => .pure ⟨here, ofReceiver, ofName, ofParams, ofSig, ofBody⟩
      split
      · refine .bind (.map (sound.body.mono ?_)) withBody_meets
        rintro b holds _ ⟨⟩
        exact holds
      · exact .bind (.pure nofun) withBody_meets
    split
    · exact .bind (.map (typeParams_meets sound)) withParams_meets
    · exact .bind (.pure trivial) withParams_meets
  split
  · exact .bind (.map (valueParams_meets sound)) withReceiver_meets
  · exact .bind (.pure trivial) withReceiver_meets

theorem decl?_meets : Meets P K (decl? g) fun o => ∀ d ∈ o, d.Read P := by
  have group {kind : DeclKind} {k : TokenKind} (h : k.isSolid) : Meets P (· = k)
      (do return some (Decl.gen (← genDecl g kind))) fun o => ∀ d ∈ o, Decl.Read P d := by
    refine .bind (genDecl_meets sound (isSolid_of_eq h)) fun d holds => .pure ?_
    rintro _ ⟨⟩
    exact holds
  refine .bind (.skipSemis _) fun _ _ => .peek_bind fun k _ => ?_
  split
  · exact .pure nofun
  · exact group rfl
  · exact group rfl
  · exact group rfl
  · exact group rfl
  · refine .bind (funcDecl_meets sound) fun f holds => .pure ?_
    rintro _ ⟨⟩
    exact holds
  · exact .unexpected

theorem decl?_bracketed :
    Meets P K (decl? g) fun o => ∀ d, some (Decl.gen d) = o → d.Bracketed := by
  have group {kind : DeclKind} {K} : Meets P K (do return some (Decl.gen (← genDecl g kind)))
      fun o => ∀ d, some (Decl.gen d) = o → d.Bracketed := by
    refine .bind (genDecl_bracketed sound) fun d holds => .pure ?_
    rintro _ ⟨⟩
    exact holds
  refine .bind (.skipSemis _) fun _ _ => .peek_bind fun k _ => ?_
  split
  · exact .pure nofun
  · exact group
  · exact group
  · exact group
  · exact group
  · exact .bind (funcDecl_meets sound) fun f _ => .pure nofun
  · exact .unexpected

theorem file_bracketed {comments : List CommentGroup} {lines : LineTable} :
    Meets P K (file g comments lines) fun f => ∀ d, .gen d ∈ f.decls → d.Bracketed := by
  have item {K} : Meets P K (decl? g) fun o => ∀ d ∈ o, ∀ d', d = .gen d' → d'.Bracketed := by
    refine (decl?_bracketed sound).mono ?_
    rintro _ holds _ ⟨⟩ d rfl
    exact holds d rfl
  refine .lead_bind fun doc => .bind .expectKeyword fun packagePos _ => ?_
  refine .bind .ident fun name _ => .bind .terminator fun _ _ => ?_
  refine .bind (.many item _) fun decls holds => .pure ?_
  exact fun d mem => holds _ mem d rfl

theorem file_meets {comments : List CommentGroup} {lines : LineTable} :
    Meets P K (file g comments lines) fun f =>
      P f.name.span ∧ (∀ d ∈ f.decls, d.Read P) ∧ f.comments = comments ∧
        f.lines = lines := by
  refine .lead_bind fun doc => .bind .expectKeyword fun packagePos _ => ?_
  refine .bind .ident fun name ofName => .bind .terminator fun _ _ => ?_
  refine .bind (.many (decl?_meets sound) _) fun decls holds => .pure ?_
  exact ⟨ofName, holds, rfl, rfl⟩

end Rules

/-- The tokens of an input, with what is attached to them. -/
def Input.tokens (input : Input) : List Attached := input.cursor.current :: input.cursor.rest

/-- A source makes an input out of its tokens and comments. -/
theorem Input.of_ofSource {src : String} {input : Input} (h : Input.ofSource src = .ok input) :
    (Scan.ofSource src).faults = [] ∧ input.lines = LineTable.ofSource src ∧
      Attached.attach (LineTable.ofSource src) 0 0
        ((Scan.ofSource src).tokens ++ [⟨.eof, .point src.utf8ByteSize⟩])
        (Scan.ofSource src).comments = (input.tokens, input.comments) := by
  have kept := Attached.attach_tokens (LineTable.ofSource src) 0 0
    ((Scan.ofSource src).tokens ++ [⟨.eof, .point src.utf8ByteSize⟩]) (Scan.ofSource src).comments
  unfold Input.ofSource at h
  dsimp only at h
  split at h
  · nomatch h
  · rename_i faultless
    refine ⟨faultless, ?_⟩
    generalize Attached.attach .. = attached at kept h ⊢
    obtain ⟨tokens, groups⟩ := attached
    cases tokens with
    | nil => simp at kept
    | cons current rest =>
      cases h
      exact ⟨rfl, rfl⟩

theorem Input.exists_ofSource_iff (src : String) :
    (∃ input, Input.ofSource src = .ok input) ↔ (Scan.ofSource src).faults = [] := by
  constructor
  · rintro ⟨input, h⟩
    exact (Input.of_ofSource h).1
  · intro faultless
    unfold Input.ofSource
    dsimp only
    rw [faultless]
    dsimp only
    split
    · exact ⟨_, rfl⟩
    · exact ⟨_, rfl⟩

/-- The tokens before a cursor at the start of a source lie within it. -/
theorem Input.ofSource_every {src : String} {input : Input} (h : Input.ofSource src = .ok input) :
    input.cursor.Every (Span.Within src.utf8ByteSize) ∧
      CommentGroup.Below src.utf8ByteSize input.comments ∧
      input.lines = LineTable.ofSource src := by
  obtain ⟨-, lines, made⟩ := Input.of_ofSource h
  have tokens := congrArg Prod.fst made
  have groups := congrArg Prod.snd made
  dsimp only at tokens groups
  refine ⟨?_, ?_, lines⟩
  · intro t mem solid
    have found : t.toToken ∈ (Scan.ofSource src).tokens ++ [⟨.eof, .point src.utf8ByteSize⟩] := by
      rw [← Attached.attach_tokens (LineTable.ofSource src) 0 0 (_ ++ _)
        (Scan.ofSource src).comments, tokens]
      exact List.mem_map_of_mem mem
    rcases List.mem_append.mp found with read | ended
    · exact Scan.tokens_within src t.toToken read solid
    · rw [List.mem_singleton] at ended
      rw [show t.kind = .eof from congrArg Token.kind ended] at solid
      nomatch solid
  · intro g mem c inGroup
    rw [← groups] at mem
    exact (Scan.comments_within src c (Attached.mem_of_mem_attach g mem c inGroup)).2

theorem Input.of_run_eq_ok {α : Type} {input : Input} {r : Readers → Reader α} {a : α}
    (run : input.run r = .ok a) :
    ∃ c' level', r (readers input.cursor.rest.length) input.cursor 0 = .ok ((a, c'), level') := by
  unfold Input.run at run
  split at run
  · rename_i c' level' read
    cases run
    exact ⟨c', level', read⟩
  · nomatch run

/-- What a reader makes of every input is true of what it read. -/
theorem Input.of_run {α : Type} {input : Input} {r : Readers → Reader α} {a : α} {Q : α → Prop}
    (run : input.run r = .ok a) (every : input.cursor.Every P)
    (meets : Meets P anyKind (r (readers input.cursor.rest.length)) Q) : Q a := by
  obtain ⟨c', level', read⟩ := Input.of_run_eq_ok run
  exact (meets 0 input.cursor every trivial a c' level' read).1

end Grammar

/-- A file over the first `n` bytes: what is in it lies there. -/
structure SourceFile.Over (n : Nat) (f : SourceFile) : Prop where
  name : f.name.span.Within n
  decls : ∀ d ∈ f.decls, d.Everywhere (Span.Within n)
  comments : CommentGroup.Below n f.comments
  lines : f.lines.Over n

/-- Imports stand in declarations of imports only among their like. -/
def SourceFile.WellKinded (f : SourceFile) : Prop := ∀ d, .gen d ∈ f.decls → d.WellKinded

theorem exists_of_bind_eq_ok {ε α β : Type} {x : Except ε α} {f : α → Except ε β} {b : β}
    (h : (x >>= f) = .ok b) : ∃ a, x = .ok a ∧ f a = .ok b := by
  cases x with
  | error e => nomatch h
  | ok a => exact ⟨a, rfl, h⟩

/-- What is read from a source lies in it. -/
theorem SourceFile.over_of_parse {src : String} {f : SourceFile}
    (h : SourceFile.parse src = .ok f) : f.Over src.utf8ByteSize ∧ f.WellKinded := by
  obtain ⟨input, read, run⟩ := exists_of_bind_eq_ok h
  obtain ⟨every, below, lines⟩ := Grammar.Input.ofSource_every read
  have sound : (Grammar.readers input.cursor.rest.length).Sound (Span.Within src.utf8ByteSize) :=
    Grammar.readers_sound (fun _ within => Span.within_point within.1) _
  obtain ⟨name, decls, comments, lines'⟩ :=
    Grammar.Input.of_run run every (Grammar.file_meets sound)
  refine ⟨⟨name, fun d mem => (decls d mem).everywhere, comments ▸ below, ?_⟩, ?_⟩
  · rw [lines', lines]
    exact LineTable.over_ofSource src
  · exact fun d mem => (decls _ mem).2

theorem SourceFile.bracketed_of_parse {src : String} {f : SourceFile}
    (h : SourceFile.parse src = .ok f) : ∀ d, .gen d ∈ f.decls → d.Bracketed := by
  obtain ⟨input, read, run⟩ := exists_of_bind_eq_ok h
  have sound : (Grammar.readers input.cursor.rest.length).Sound fun _ => True :=
    Grammar.readers_sound (fun _ _ => trivial) _
  exact Grammar.Input.of_run run (fun _ _ _ => trivial) (Grammar.file_bracketed sound)

end GoLayout
