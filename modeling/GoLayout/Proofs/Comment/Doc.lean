import GoLayout.Layout.Tree
import GoLayout.Proofs.Grammar.File
import GoLayout.Proofs.LineTable.History

/-!
The doc of a file. The package clause comes first in a file, so its doc is the last group of the
comments before it, if that ends on the line above.
-/

namespace GoLayout

namespace Grammar

theorem expectKeyword_eq_ok {k : Keyword} {level level' : Level} {c c' : Cursor}
    {span : Span}
    (run : expectKeyword k c level = .ok ((span, c'), level')) :
    c.current.kind = .keyword k ∧ span = c.current.span := by
  change (if c.current.kind == .keyword k then step else unexpected (.keyword k)) c level = _ at run
  split at run
  · rename_i isKeyword
    change Except.ok ((c.current.span, c.next), level) = _ at run
    cases run
    exact ⟨eq_of_beq isKeyword, rfl⟩
  · nomatch run

/-- A file begins with the token under the cursor. -/
theorem file_first {g : Readers} (sound : g.Sound fun _ => True) {comments : List CommentGroup}
    {lines : LineTable} {level level' : Level} {c c' : Cursor} {f : SourceFile}
    (run : file g comments lines c level = .ok ((f, c'), level')) :
    c.current.kind = .keyword .kwPackage ∧ f.packagePos = c.current.span ∧
      f.doc = c.current.lead := by
  let behind (packagePos : Span) : Reader SourceFile := do
    let name ← ident
    terminator
    let decls ← many (decl? g) g.rounds
    return ⟨packagePos, name, c.current.lead, decls, comments, lines⟩
  have kept (packagePos : Span) : Meets (fun _ => True) anyKind (behind packagePos) fun f =>
      f.packagePos = packagePos ∧ f.doc = c.current.lead := by
    refine .bind .ident fun name _ => .bind .terminator fun _ _ => ?_
    exact .bind (.many (decl?_meets sound) _) fun decls _ => .pure ⟨rfl, rfl⟩
  obtain ⟨⟨⟨packagePos, c''⟩, level''⟩, expected, rest⟩ : ∃ x,
      expectKeyword .kwPackage c level = .ok x ∧
        behind x.1.1 x.1.2 x.2 = .ok ((f, c'), level') := exists_of_bind_eq_ok run
  obtain ⟨kind, rfl⟩ := expectKeyword_eq_ok expected
  obtain ⟨holds, -⟩ := kept _ level'' c'' (fun _ _ _ => trivial) trivial f c' level' rest
  exact ⟨kind, holds⟩

end Grammar

namespace SourceFile

/-- What the group says that a link is to. -/
def groupTexts (f : SourceFile) (link : Link) : Option (List String) :=
  (link.bind (f.comments[·]?)).map (·.texts)

/-- What the doc of the package says. -/
def docTexts (f : SourceFile) : Option (List String) := f.groupTexts f.doc

/-- The comments before the package clause. -/
def header (f : SourceFile) : List Comment :=
  f.allComments.takeWhile (·.span.start < f.packagePos.start)

/-- What a file that was read tells of the source before its package clause. -/
structure ReadsHeader (src : String) (f : SourceFile) (t : Token) : Prop where
  first : (Scan.ofSource src).tokens.head? = some t
  faultless : (Scan.ofSource src).faults = []
  packagePos : f.packagePos = t.span
  lines : f.lines = LineTable.ofSource src
  allComments : f.allComments = (Scan.ofSource src).comments
  docTexts : f.docTexts = Attached.leadTexts (LineTable.ofSource src)
    ((LineTable.ofSource src).line t.span.start) f.header

theorem readsHeader_of_parse {src : String} {f : SourceFile} (read : parse src = .ok f) :
    ∃ t, ReadsHeader src f t := by
  obtain ⟨input, made, run⟩ := exists_of_bind_eq_ok read
  obtain ⟨faultless, lines, attached⟩ := Grammar.Input.of_ofSource made
  have sound : (Grammar.readers input.cursor.rest.length).Sound fun _ => True :=
    Grammar.readers_sound (fun _ _ => trivial) _
  obtain ⟨-, -, comments, lines'⟩ :=
    Grammar.Input.of_run run (fun _ _ _ => trivial) (Grammar.file_meets sound)
  obtain ⟨c', level', ran⟩ := Grammar.Input.of_run_eq_ok run
  obtain ⟨kind, packagePos, doc⟩ := Grammar.file_first sound ran
  have all : f.allComments = (Scan.ofSource src).comments := by
    rw [allComments, comments, ← Attached.attach_flatMap (Scan.comments_endsBehind src), attached]
  have positive : ∀ pos, 0 < (LineTable.ofSource src).line pos :=
    LineTable.line_pos (LineTable.over_ofSource src)
  obtain ⟨t, ts, tokens⟩ : ∃ t ts, (Scan.ofSource src).tokens ++
      [⟨.eof, .point src.utf8ByteSize⟩] = t :: ts := List.exists_cons_of_ne_nil (by simp)
  obtain ⟨first, rest, groups, attached', isFirst, texts⟩ :=
    Attached.attach_first positive t ts (Scan.ofSource src).comments
  rw [tokens, attached'] at attached
  obtain ⟨sameTokens, rfl⟩ := Prod.mk.inj attached
  obtain ⟨rfl, -⟩ := List.cons.inj sameTokens
  have isToken : (Scan.ofSource src).tokens.head? = some t := by
    cases none : (Scan.ofSource src).tokens with
    | nil =>
      -- The end of the source is no package clause.
      rw [none] at tokens
      obtain ⟨rfl, -⟩ := List.cons.inj tokens
      rw [isFirst] at kind
      nomatch kind
    | cons u us =>
      rw [none] at tokens
      exact congrArg some (List.cons.inj tokens).1
  subst isFirst
  refine ⟨_, isToken, faultless, packagePos, lines'.trans lines, all, ?_⟩
  rw [header, all, packagePos, ← texts, docTexts, groupTexts, doc, comments]

end SourceFile

end GoLayout
