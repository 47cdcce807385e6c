import GoLayout.Grammar.File
import GoLayout.Proofs.Comment.Attach
import GoLayout.Proofs.Form.File
import GoLayout.Proofs.Words.Stmt

/-!
The words of a file as it is read. They are words of the source in their order, each of them once.
They are all of them where everything has room: a statement with room for one expression drops the
others of a list, and a type drops its arguments but those in the last brackets. Where the source
has no functions, and no literals with types in brackets, there is nothing to drop.
-/

namespace GoLayout

namespace Grammar

variable {s : Scope} {acc : Account} {K : TokenKind → Prop}

/-- Every phrase takes words as its rule does, over readers that go one level less deep. -/
theorem readWithin_keeps (depth : Nat) : (Readers.mk depth (readWithin depth)).Keeps := by
  induction depth with
  | zero =>
    exact ⟨fun _ => readWithin_forms 0, .cutOff, fun _ => .cutOff, .cutOff, .cutOff, .cutOff,
      .cutOff⟩
  | succ depth ih =>
    exact ⟨fun _ => readWithin_forms (depth + 1), typeRule_takes ih, fun _ => binaryRule_takes ih,
      unaryRule_takes ih, elementsRule_takes ih, stmtRule_takes ih, ifRule_takes ih⟩

section Rules

variable {g : Readers} (keeps : g.Keeps)

include keeps

theorem funcDecl_takes : Takes (Drawn s acc) K (funcDecl g) fun f =>
    Drawn s (acc.add f.nodes f.words) := by
  refine .lead_bind fun doc => .bind .expectFunc fun funcPos => .looksAt_bind fun b => ?_
  extract_lets withReceiver
  have withReceiver_takes : ∀ receiver : Option FieldList,
      Takes (Drawn .body (acc.add (FieldList.nodesOpt receiver) (FieldList.wordsOpt receiver)))
        anyKind (withReceiver receiver) fun f => Drawn s (acc.add f.nodes f.words) := by
    intro receiver
    refine .bind .ident fun name => .looksAt_bind fun b => ?_
    extract_lets withParams
    have withParams_takes : ∀ params : Option FieldList,
        Takes (Drawn .body (acc.add (FieldList.nodesOpt receiver) (FieldList.wordsOpt receiver)
            |>.add [] [name.word]
            |>.add (FieldList.nodesOpt params) (FieldList.wordsOpt params)))
          anyKind (withParams params) fun f => Drawn s (acc.add f.nodes f.words) := by
      intro params
      refine .bind (signature_takes keeps) fun sig => .looksAt_bind fun b => ?_
      extract_lets withBody
      have withBody_takes : ∀ body : Option Block,
          Takes (Drawn .body (acc.add (FieldList.nodesOpt receiver) (FieldList.wordsOpt receiver)
              |>.add [] [name.word]
              |>.add (FieldList.nodesOpt params) (FieldList.wordsOpt params)
              |>.add sig.nodes sig.words
              |>.add ((body.map (·.nodes)).getD []) ((body.map (·.words)).getD [])))
            anyKind (withBody body) fun f => Drawn s (acc.add f.nodes f.words) := fun body =>
        .bind .terminator fun _ => .pure fun ts drawn => by
          simpa [FuncDecl.words, FuncDecl.nodes] using drawn.leave
      split
      · exact .bind (.map keeps.body) withBody_takes
      · exact .bind (.done (by simp)) withBody_takes
    split
    · exact .bind (.map (typeParams_takes keeps)) withParams_takes
    · exact .bind (.done (by simp [FieldList.wordsOpt, FieldList.nodesOpt])) withParams_takes
  split
  · exact .bind (.map (valueParams_takes keeps)) withReceiver_takes
  · exact .bind (.done (by simp [FieldList.wordsOpt, FieldList.nodesOpt])) withReceiver_takes

theorem decl?_takes : Takes (Drawn s acc) K (decl? g) fun o =>
    Drawn s (acc.add (o.toList.flatMap Decl.nodes) (o.toList.flatMap Decl.words)) := by
  have group {kind : DeclKind} {k : TokenKind} (silent : isSilent k) :
      Takes (Drawn s acc) (· = k) (do return some (Decl.gen (← genDecl g kind))) fun o =>
        Drawn s (acc.add (o.toList.flatMap Decl.nodes) (o.toList.flatMap Decl.words)) :=
    .bind (genDecl_takes keeps (isSilent_of_eq silent)) fun d => .done (by
      simp [Decl.words, Decl.nodes])
  refine .bind (.skipSemis _) fun _ => .peek_bind fun k _ => ?_
  split
  · exact .done (by simp)
  · exact group rfl
  · exact group rfl
  · exact group rfl
  · exact group rfl
  · exact .bind (funcDecl_takes keeps) fun f => .done (by simp [Decl.words, Decl.nodes])
  · exact .unexpected

theorem file_takes {comments : List CommentGroup} {lines : LineTable} :
    Takes (Drawn s acc) K (file g comments lines) fun f => Drawn s (acc.add f.nodes f.words) := by
  refine .lead_bind fun doc => .bind .expectKeyword fun packagePos => .bind .ident fun name => ?_
  refine .bind .terminator fun _ => .bind (.many (decl?_takes keeps) _) fun decls => .done ?_
  simp [SourceFile.words, SourceFile.nodes]

end Rules

/-! ### The end of a file -/

variable {level level' : Level} {c c' : Cursor}

theorem exists_of_reader_bind {α β : Type} {r : Reader α} {f : α → Reader β} {b : β}
    (run : (r >>= f) c level = .ok ((b, c'), level')) : ∃ a c'' level'',
    r c level = .ok ((a, c''), level'') ∧ f a c'' level'' = .ok ((b, c'), level') := by
  obtain ⟨⟨⟨a, c''⟩, level''⟩, read, rest⟩ := exists_of_bind_eq_ok
    (show (r c level >>= fun x => f x.1.1 x.1.2 x.2) = .ok ((b, c'), level') from run)
  exact ⟨a, c'', level'', read, rest⟩

/-- Where there is no further declaration, the source ends. -/
theorem decl?_none {g : Readers}
    (run : decl? g c level = .ok ((none, c'), level')) : c'.current.kind = .eof := by
  unfold decl? at run
  obtain ⟨_, c₁, _, -, run⟩ := exists_of_reader_bind run
  obtain ⟨_, _, _, peeked, run⟩ := exists_of_reader_bind run
  cases peeked
  cases kind : c₁.current.kind with
  | eof =>
    rw [kind] at run
    cases run
    exact kind
  | keyword k =>
    rw [kind] at run
    cases k
    all_goals
      dsimp only at run
      obtain ⟨_, _, _, -, returned⟩ := exists_of_reader_bind run
      cases returned
  | _ =>
    rw [kind] at run
    nomatch run

theorem many_ends {α : Type} {item : Reader (Option α)} {Q : Cursor → Prop}
    (h : ∀ c level c' level', item c level = .ok ((none, c'), level') → Q c') {rounds : Nat}
    {as : List α} (run : many item rounds c level = .ok ((as, c'), level')) : Q c' := by
  induction rounds generalizing c level as with
  | zero => nomatch run
  | succ n ih =>
    unfold many at run
    obtain ⟨o, c₁, level₁, first, run⟩ := exists_of_reader_bind run
    cases o with
    | none =>
      cases run
      exact h c level _ _ first
    | some a =>
      obtain ⟨as', c₂, level₂, rest, run⟩ := exists_of_reader_bind run
      cases run
      exact ih rest

theorem file_ends {g : Readers} {comments : List CommentGroup} {lines : LineTable}
    {f : SourceFile}
    (run : file g comments lines c level = .ok ((f, c'), level')) : c'.current.kind = .eof := by
  unfold file at run
  obtain ⟨doc, c₁, _, -, run⟩ := exists_of_reader_bind run
  obtain ⟨packagePos, c₂, _, -, run⟩ := exists_of_reader_bind run
  obtain ⟨name, c₃, _, -, run⟩ := exists_of_reader_bind run
  obtain ⟨_, c₄, _, -, run⟩ := exists_of_reader_bind run
  obtain ⟨decls, c₅, _, read, run⟩ := exists_of_reader_bind run
  cases run
  exact many_ends (Q := fun c => c.current.kind = .eof) (fun _ _ _ _ => decl?_none) read

/-- The tokens before a cursor at the start of a source are those of the source. -/
theorem Input.ofSource_tokens {src : String} {input : Input} (h : Input.ofSource src = .ok input) :
    input.cursor.tokens = (Scan.ofSource src).tokens ++ [⟨.eof, .point src.utf8ByteSize⟩] := by
  obtain ⟨-, -, attached⟩ := Input.of_ofSource h
  have same := Attached.attach_tokens (LineTable.ofSource src) 0 0
    ((Scan.ofSource src).tokens ++ [⟨.eof, .point src.utf8ByteSize⟩]) (Scan.ofSource src).comments
  rw [attached] at same
  exact same

/-- The words of a file are drawn from its source. -/
theorem drawn_of_parse {src : String} {f : SourceFile} (h : SourceFile.parse src = .ok f) :
    Drawn .outer (Account.empty.add f.nodes f.words) (Scan.ofSource src).tokens := by
  obtain ⟨input, read, run⟩ := exists_of_bind_eq_ok h
  have tokens := Input.ofSource_tokens read
  have ended : input.cursor.Ended :=
    ⟨(Scan.ofSource src).tokens, _, tokens, rfl, Scan.tokens_ne_eof src⟩
  obtain ⟨c', level', fileRead⟩ := Input.of_run_eq_ok run
  have taken : Takes (Drawn .outer .empty) anyKind
      (file (readers input.cursor.rest.length) input.comments input.lines) fun f =>
        Drawn .outer (Account.empty.add f.nodes f.words) := file_takes (readWithin_keeps _)
  obtain ⟨ended', passed, parts, drawn⟩ :=
    taken 0 input.cursor ended trivial f c' level' fileRead
  obtain ⟨last, rest⟩ := ended'.tokens_eq (file_ends fileRead)
  rw [tokens, rest] at parts
  rw [(List.append_inj' parts rfl).1]
  exact drawn [] .empty

end Grammar

namespace SourceFile

/-- The words of a file are words of its source, in their order and none of them twice. They are all
of them where the source has no functions and no literals with types in brackets. With both, they
are all of them where no comma stands behind an expression that is the only one its statement keeps,
and no closing bracket before the arguments of a type. -/
theorem parse_keeps_words {src : String} {f : SourceFile} (h : SourceFile.parse src = .ok f) :
    f.words.Sublist (Token.words (Scan.ofSource src).tokens) ∧
      (Token.Plain (Scan.ofSource src).tokens →
        f.words = Token.words (Scan.ofSource src).tokens) ∧
      ((∀ r ∈ rooms f.nodes, r.Fits (Scan.ofSource src).tokens) →
        f.words = Token.words (Scan.ofSource src).tokens) :=
  have drawn := Grammar.drawn_of_parse h
  ⟨drawn.sublist, fun plain => (drawn.plain plain).2, drawn.whole⟩

/-- A group of variables and a literal of a map; and a function with lists where there is room for
them, a loop over a range and a literal of a type with arguments: every word is kept. -/
theorem parse_keeps_words_of_group :
    (∃ f,
      SourceFile.parse "package p\nvar (a, b = q.X[1], map[K]int\x7b\"k\": 1\x7d; c T)\n" = .ok f ∧
      f.words.map (·.text) =
        ["p", "a", "b", "q", "X", "1", "K", "int", "\"k\"", "1", "c", "T"]) ∧
      ∃ f,
        SourceFile.parse
          "package p\nfunc f() \x7b for i, v := range s \x7ba, b = m[T]\x7bi\x7d, v; c++\x7d \x7d" =
            .ok f ∧
        f.words.map (·.text) = ["p", "f", "i", "v", "s", "a", "b", "m", "T", "i", "v", "c"] := by
  constructor
  · generalize source : SourceFile.parse _ = parsed
    have accepted : parsed.toOption.isSome := by
      rw [← source]
      decide +kernel
    cases parsed with
    | error e => nomatch accepted
    | ok f =>
      refine ⟨f, rfl, ?_⟩
      rw [(parse_keeps_words source).2.1 ⟨by decide +kernel, by decide +kernel⟩]
      decide +kernel
  · generalize source : SourceFile.parse _ = parsed
    have places : parsed.toOption.map (rooms ·.nodes) =
        some [.one 29, .arguments ⟨50, 51⟩, .one 62] := by
      rw [← source]
      decide +kernel
    cases parsed with
    | error e => nomatch places
    | ok f =>
      refine ⟨f, rfl, ?_⟩
      rw [(parse_keeps_words source).2.2 ?_]
      · decide +kernel
      · rw [show rooms f.nodes = _ from Option.some.inj places]
        decide +kernel

/-- Only the first of the expressions before `++` is kept. -/
theorem parse_drops_words :
    ¬ ∀ src f, SourceFile.parse src = .ok f →
      f.words.Perm (Token.words (Scan.ofSource src).tokens) := by
  intro keeps
  generalize source : SourceFile.parse "package p\n\nfunc f() \x7b\n\ta, b++\n\x7d\n" = parsed
  have words : parsed.toOption.map (·.words.length) = some 3 := by
    rw [← source]
    decide +kernel
  cases parsed with
  | error e => nomatch words
  | ok f =>
    have fewer : f.words.length = 3 := Option.some.inj words
    have all := (keeps _ f source).length_eq
    rw [fewer] at all
    exact absurd all (by decide +kernel)

end SourceFile

end GoLayout
