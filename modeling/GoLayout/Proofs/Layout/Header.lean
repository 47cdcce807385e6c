import GoLayout.Proofs.Comment.Doc
import GoLayout.Proofs.Layout.Print
import GoLayout.Proofs.Token.Comment

/-!
The header of a file in print. The comments before the package clause keep the groups they form,
but not their distance to the clause: a line comment ends up on the line above it and any other
comment on its line. So the doc of a package survives printing exactly where the header ends in a
line comment if, and only if, there is a doc.
-/

namespace GoLayout

open Lexeme

/-! ### The text of a header -/

/-- The newlines printed between two comments of a header. -/
def Comment.newlinesTo (lines : LineTable) (c d : Comment) : Nat :=
  max (Nat.min (lines.line d.span.start - lines.lastLine c.span) Printer.maxNewlines)
    (if c.kind = .line then 1 else 0)

/-- What is printed between two comments of a header. -/
def Comment.gapTo (lines : LineTable) (c d : Comment) : Gap :=
  if 0 < c.newlinesTo lines d then .lines (c.newlinesTo lines d) 0 else .space

/-- What is printed between the last comment of a header and the package clause. -/
def Comment.gapBehind (c : Comment) : Gap := if c.kind = .line then .lines 1 0 else .none

namespace Printer

variable {lines : LineTable}

/-- What is printed behind the comment `c`, up to the package clause. -/
def behindText (lines : LineTable) (c : Comment) : List Comment → List Char
  | [] => c.gapBehind.chars
  | d :: ds => (c.gapTo lines d).chars ++ (d.text.toList ++ behindText lines d ds)

/-- What is printed before the package clause. -/
def headerText (lines : LineTable) : List Comment → List Char
  | [] => []
  | c :: cs => c.text.toList ++ behindText lines c cs

/-- A printer that has just printed a comment. -/
structure Behind (lines : LineTable) (c : Comment) (p : Printer (List Piece)) : Prop where
  started : p.started
  margin : p.indent = 0
  lastLine : p.lastLine = lines.lastLine c.span
  newlines : p.newlines = 0
  space : p.space = false
  mustBreak : p.mustBreak = (c.kind == .line)

theorem behind_comment {p : Printer (List Piece)} (margin : p.indent = 0) (sep : Sep)
    (c : Comment) : Behind lines c (p.comment lines sep c).2 :=
  ⟨rfl, margin, rfl, rfl, rfl, rfl⟩

theorem gap_of_margin {p : Printer (List Piece)} (started : p.started) (margin : p.indent = 0) :
    p.gap = if 0 < p.newlines then .lines p.newlines 0
      else if p.space then .space else .none := by
  simp [Printer.gap, started, margin]

/-- The comment behind another one in a header. -/
theorem Behind.out_comment {p : Printer (List Piece)} {c : Comment} (behind : Behind lines c p)
    (d : Comment) :
    (p.comment lines .glue d).2.out = ⟨c.gapTo lines d, d.text, true⟩ :: p.out := by
  have count : p.newlinesFor (lines.line d.span.start) .lineOrSpace = c.newlinesTo lines d := by
    simp only [newlinesFor, behind.started, behind.lastLine, behind.mustBreak, beq_iff_eq, if_true,
      Nat.max_zero]
    rfl
  have gap : (p.place (lines.line d.span.start) .lineOrSpace).gap = c.gapTo lines d := by
    rw [gap_of_margin (p := p.place _ _) behind.started behind.margin, Comment.gapTo]
    simp only [place, count, behind.newlines, behind.space, Nat.zero_max]
    split
    · rfl
    · rename_i none
      have none : c.newlinesTo lines d = 0 := by omega
      simp [none]
  change ⟨(p.place (lines.line d.span.start) .lineOrSpace).gap, d.text, true⟩ :: p.out = _
  rw [gap]

/-- The word behind the last comment of a header. -/
theorem Behind.out_write {p : Printer (List Piece)} {c : Comment} (behind : Behind lines c p)
    (line : Nat) (text : String) :
    ((p.place line .glue).write text false).out = ⟨c.gapBehind, text, false⟩ :: p.out := by
  have gap : (p.place line .glue).gap = c.gapBehind := by
    rw [gap_of_margin (p := p.place _ _) behind.started behind.margin, Comment.gapBehind]
    simp only [place, newlinesFor, behind.newlines, behind.space, behind.mustBreak, Nat.zero_max,
      beq_iff_eq]
    split
    · rfl
    · rfl
  change ⟨(p.place line .glue).gap, text, false⟩ :: p.out = _
  rw [gap]

theorem join_reverse_cons (piece : Piece) (pieces : List Piece) :
    Piece.join (piece :: pieces).reverse = Piece.join pieces.reverse ++ piece.chars := by
  simp [Piece.join]

/-- What is printed behind a comment, up to the word at `pos`. -/
theorem Behind.join_toPos {p : Printer (List Piece)} {c : Comment} (behind : Behind lines c p)
    (pos : Nat) (cs : List Comment) (text : String) :
    Piece.join (((flush lines (some pos) cs .glue p).2.place (lines.line pos)
        (flush lines (some pos) cs .glue p).1).write text false).out.reverse =
      Piece.join p.out.reverse ++
        (behindText lines c (cs.takeWhile (·.span.start < pos)) ++ text.toList) := by
  induction cs generalizing c p with
  | nil =>
    have stopped : Behind lines c { p with pending := [] } :=
      ⟨behind.started, behind.margin, behind.lastLine, behind.newlines, behind.space,
          behind.mustBreak⟩
    rw [flush, stopped.out_write, join_reverse_cons]
    rfl
  | cons d ds ih =>
    unfold flush
    rw [List.takeWhile_cons]
    split
    · rename_i before
      have before : decide (d.span.start < pos) = true := before
      have printed := ih (behind_comment behind.margin .glue d)
      rw [behind.out_comment, join_reverse_cons] at printed
      rw [if_pos before]
      refine printed.trans ?_
      simp [behindText, Piece.chars]
    · rename_i after
      have after : ¬ decide (d.span.start < pos) = true := after
      have stopped : Behind lines c { p with pending := d :: ds } :=
        ⟨behind.started, behind.margin, behind.lastLine, behind.newlines, behind.space,
          behind.mustBreak⟩
      rw [if_neg after, stopped.out_write, join_reverse_cons]
      rfl

/-- What is printed from the start, up to the word at `pos`. -/
theorem join_start (pos : Nat) (cs : List Comment) (text : String) :
    Piece.join (((flush lines (some pos) cs .glue (start ([] : List Piece) cs)).2.place
        (lines.line pos) (flush lines (some pos) cs .glue (start ([] : List Piece) cs)).1).write
        text false).out.reverse =
      headerText lines (cs.takeWhile (·.span.start < pos)) ++ text.toList := by
  have alone : ∀ p : Printer (List Piece), p.out = [] → p.started = false →
      Piece.join ((p.place (lines.line pos) .glue).write text false).out.reverse =
        text.toList := by
    intro p nothing fresh
    simp [write, place, gap, Sink.put, nothing, fresh, Piece.join, Piece.chars, Gap.chars]
  cases cs with
  | nil => exact alone _ rfl rfl
  | cons c cs =>
    unfold flush
    rw [List.takeWhile_cons]
    split
    · rename_i before
      have before : decide (c.span.start < pos) = true := before
      have first : ((start ([] : List Piece) (c :: cs)).comment lines .glue c).2.out =
          [⟨.none, c.text, true⟩] := rfl
      have behind : Behind lines c ((start ([] : List Piece) (c :: cs)).comment lines .glue c).2 :=
        behind_comment rfl .glue c
      have printed := behind.join_toPos pos cs text
      rw [first] at printed
      rw [if_pos before]
      refine printed.trans ?_
      simp [headerText, Piece.join, Piece.chars, Gap.chars]
    · rename_i after
      have after : ¬ decide (c.span.start < pos) = true := after
      rw [if_neg after]
      exact alone _ rfl rfl

end Printer

/-- A file is printed with its header first and the package clause right behind it. -/
theorem SourceFile.print_eq_header (f : SourceFile) :
    ∃ rest, f.print.toList =
      Printer.headerText f.lines f.header ++ ("package".toList ++ rest) := by
  let clause : Layout := .token f.packagePos "package" .glue
  have first : clause.pieces f.lines f.allComments <+: f.pieces :=
    (Layout.pieces_prefix _ _ clause _).trans
      ((Layout.pieces_prefix _ _ _ _).trans (Layout.pieces_prefix _ _ _ _))
  obtain ⟨more, parts⟩ := first
  have header : Piece.join (clause.pieces f.lines f.allComments) =
      Printer.headerText f.lines f.header ++ "package".toList :=
    Printer.join_start f.packagePos.start f.allComments "package"
  refine ⟨Piece.join more ++ ['\n'], ?_⟩
  rw [toList_print, ← parts, Piece.join, List.flatMap_append]
  change Piece.join (clause.pieces f.lines f.allComments) ++ _ ++ _ = _
  rw [header]
  simp only [List.append_assoc]
  rfl

/-! ### Reading a header -/

namespace Comment

variable {lines : LineTable} {c d : Comment}

theorem newlinesTo_pos (isLine : c.kind = .line) : 0 < c.newlinesTo lines d := by
  rw [newlinesTo, if_pos isLine]
  omega

/-- One newline is kept as one, and a blank line as one blank line. -/
theorem newlinesTo_le_one_iff :
    c.newlinesTo lines d ≤ 1 ↔ lines.line d.span.start ≤ lines.lastLine c.span + 1 := by
  have forced : (if c.kind = .line then 1 else 0) ≤ 1 := by split <;> omega
  have least : Nat.min (lines.line d.span.start - lines.lastLine c.span) Printer.maxNewlines ≤ 1 ↔
      lines.line d.span.start - lines.lastLine c.span ≤ 1 := by
    change min _ 2 ≤ 1 ↔ _
    omega
  rw [newlinesTo, Nat.max_le, and_iff_left forced, least]
  omega

theorem count_gapTo (lines : LineTable) (c d : Comment) :
    (c.gapTo lines d).chars.count '\n' = c.newlinesTo lines d := by
  unfold gapTo
  split
  · simp [Gap.chars]
  · rename_i none
    have none : c.newlinesTo lines d = 0 := by omega
    rw [none]
    rfl

theorem gapTo_flush : ∀ count indent, c.gapTo lines d = .lines count indent → indent = 0 := by
  unfold gapTo
  split
  · rintro _ _ ⟨⟩
    rfl
  · nofun

theorem gapBehind_flush : ∀ count indent, c.gapBehind = .lines count indent → indent = 0 := by
  unfold gapBehind
  split
  · rintro _ _ ⟨⟩
    rfl
  · nofun

end Comment

namespace Printer

variable {lines : LineTable} {c : Comment} {cs : List Comment}

/-- The line ends behind a line comment. -/
theorem behindText_of_line (lines : LineTable) (isLine : c.kind = .line) (cs : List Comment)
    (rest : List Char) : ∃ more, behindText lines c cs ++ rest = '\n' :: more := by
  cases cs with
  | nil => exact ⟨rest, by simp [behindText, Comment.gapBehind, isLine, Gap.chars]⟩
  | cons d ds =>
    have breaks : 0 < c.newlinesTo lines d := Comment.newlinesTo_pos isLine
    obtain ⟨n, count⟩ : ∃ n, c.newlinesTo lines d = n + 1 :=
      ⟨c.newlinesTo lines d - 1, by omega⟩
    refine ⟨List.replicate n '\n' ++ (d.text.toList ++ behindText lines d ds) ++ rest, ?_⟩
    simp [behindText, Comment.gapTo, count, Gap.chars, List.replicate_succ]

/-- The comments of a header where they are printed, behind a text that ends with `c`. -/
def placedBehind (lines : LineTable) (before : List Char) (c : Comment) :
    List Comment → List Comment
  | [] => []
  | d :: ds =>
    let front := before ++ (c.gapTo lines d).chars
    ⟨d.kind, ⟨bytes front, bytes (front ++ d.text.toList)⟩, d.text⟩ ::
      placedBehind lines (front ++ d.text.toList) d ds

/-- The comments of a header where they are printed. -/
def placed (lines : LineTable) : List Comment → List Comment
  | [] => []
  | c :: cs =>
    ⟨c.kind, ⟨0, bytes c.text.toList⟩, c.text⟩ :: placedBehind lines c.text.toList c cs

/-- Comments behind another one are read where they are printed. -/
theorem reads_behindText {before rest : List Char} {ls : List (Lexeme × Span)}
    (written : ∀ d ∈ cs, IsComment d.kind d.text.toList)
    (reads : Reads (bytes before) (behindText lines c cs ++ 'p' :: rest) ls) :
    ∃ front later, ls = front ++ later ∧ (∀ l ∈ front, Scan.isBetween l.1) ∧
      front.filterMap Scan.commentOf? = placedBehind lines before c cs ∧
      Reads (bytes (before ++ behindText lines c cs)) ('p' :: rest) later := by
  induction cs generalizing c before ls with
  | nil =>
    obtain ⟨blanks, later, rfl, quiet, behind⟩ := reads.gap Comment.gapBehind_flush rfl
    obtain ⟨noComment, between⟩ := Scan.commentOf?_blankRun quiet
    exact ⟨blanks, later, rfl, between, noComment, behind⟩
  | cons d ds ih =>
    obtain ⟨here, written⟩ := List.forall_mem_cons.mp written
    obtain ⟨tail, starts⟩ := here.eq_cons
    rw [behindText, List.append_assoc, List.append_assoc, starts, List.cons_append] at reads
    obtain ⟨blanks, rest₁, rfl, quiet, reads₁⟩ := reads.gap Comment.gapTo_flush rfl
    rw [← List.cons_append, ← starts] at reads₁
    obtain ⟨rest₂, rfl, reads₂⟩ := reads₁.comment here fun isLine => behindText_of_line lines isLine ds _
    obtain ⟨front, later, rfl, between, comments, behind⟩ := ih written reads₂
    obtain ⟨noComment, betweenBlanks⟩ := Scan.commentOf?_blankRun quiet
    refine ⟨blanks ++ _ :: front, later, (List.append_assoc blanks (_ :: front) later).symm, ?_,
      ?_, ?_⟩
    · intro l mem
      rcases List.mem_append.mp mem with mem | mem
      · exact betweenBlanks l mem
      · rcases List.mem_cons.mp mem with rfl | mem
        · rfl
        · exact between l mem
    · rw [List.filterMap_append, noComment, List.nil_append, List.filterMap_cons]
      simp only [Scan.commentOf?, String.ofList_toList]
      exact congrArg _ comments
    · simpa only [behindText, List.append_assoc] using behind

/-- The comments of a header are read where they are printed, before all else. -/
theorem all_headerText {rest : List Char} (written : ∀ d ∈ cs, IsComment d.kind d.text.toList) :
    ∃ front later, all (headerText lines cs ++ 'p' :: rest) = front ++ later ∧
      (∀ l ∈ front, Scan.isBetween l.1) ∧ front.filterMap Scan.commentOf? = placed lines cs ∧
      Reads (bytes (headerText lines cs)) ('p' :: rest) later := by
  cases cs with
  | nil => exact ⟨[], _, rfl, nofun, rfl, reads_all (by decide) rest⟩
  | cons c cs =>
    obtain ⟨here, written⟩ := List.forall_mem_cons.mp written
    obtain ⟨tail, starts⟩ := here.eq_cons
    have reads : Reads (bytes []) (c.text.toList ++ (behindText lines c cs ++ 'p' :: rest))
        (all (headerText lines (c :: cs) ++ 'p' :: rest)) := by
      rw [headerText, List.append_assoc, starts, List.cons_append]
      exact reads_all (by decide) _
    obtain ⟨behind, parts, reads⟩ := reads.comment here fun isLine => behindText_of_line lines isLine cs _
    obtain ⟨front, later, rfl, between, comments, reads⟩ := reads_behindText written reads
    refine ⟨_ :: front, later, parts, List.forall_mem_cons.mpr ⟨rfl, between⟩, ?_, reads⟩
    rw [List.filterMap_cons]
    simp only [Scan.commentOf?, String.ofList_toList]
    exact congrArg _ comments

end Printer

theorem Lexeme.read_package (rest : List Char) :
    ∃ kind taken left, read 'p' rest = (.token kind, taken, left) := by
  have isLetter : startsName 'p' = true := by decide +kernel
  have blank : blank? ('p' :: rest) = none := by
    simp [blank?, List.span_eq_takeWhile_dropWhile, isBlank]
  have newline : newline? ('p' :: rest) = none := by simp [newline?, isLineEnd]
  have comment : comment? ('p' :: rest) = none := by simp [comment?]
  obtain ⟨⟨lexeme, taken, left⟩, word⟩ : ∃ r, word? ('p' :: rest) = some r := by
    simp [word?, isLetter]
  obtain ⟨kind, isToken⟩ := word?_eq _ word
  refine ⟨kind, taken, left, ?_⟩
  rw [← isToken]
  simp [read, blank, newline, comment, word]

/-! ### The lines of a printed header -/

/-- Where a comment is printed, the lines it starts and ends on count the newlines before it. -/
theorem Lexeme.IsComment.lines {src : String} {before text rest : List Char} {kind : CommentKind}
    (isComment : IsComment kind text) (parts : src.toList = before ++ (text ++ rest)) :
    (LineTable.ofSource src).line (bytes before) = before.count '\n' + 1 ∧
      (LineTable.ofSource src).lastLine ⟨bytes before, bytes (before ++ text)⟩ =
        (before ++ text).count '\n' + 1 := by
  obtain ⟨tail, starts⟩ := isComment.eq_cons
  have nonempty : text ≠ [] := by simp [starts]
  have place : (⟨bytes before, bytes (before ++ text)⟩ : Span) =
      ⟨bytes before, bytes before + bytes text⟩ := by rw [bytes_append]
  have stands : Stands src.toList (.comment kind (String.ofList text),
      ⟨bytes before, bytes (before ++ text)⟩) :=
    ⟨before, text, rest, parts, nonempty, by simp [text?], place⟩
  have holds := stands.holds rfl
  have start : (LineTable.ofSource src).line (bytes before) = before.count '\n' + 1 := by
    have size : 0 < ('/' : Char).utf8Size := Char.utf8Size_pos _
    rw [starts, List.cons_append] at parts
    exact LineTable.line_ofSource parts (Nat.le_refl _) (by omega)
  refine ⟨start, ?_⟩
  have last := holds.lastLine
  have inside : bytes before ≤ bytes (before ++ text) - 1 := by
    have := bytes_pos nonempty
    rw [bytes_append]
    omega
  rw [LineTable.lastLine, Span.last, Nat.max_eq_left inside]
  rw [breaksIn, String.toList_ofList, isComment.count_dropLast] at last
  rw [List.count_append]
  dsimp only at last
  omega

namespace Printer

variable {lines : LineTable}

open Attached

/-- In print, comments are near if they were before, and what follows the last of them stands as
many lines below it as the gap behind it has newlines. -/
theorem placedBehind_alike {src : String} {before rest : List Char} {c c' : Comment}
    {cs : List Comment} (written : ∀ d ∈ cs, IsComment d.kind d.text.toList)
    (parts : src.toList = before ++ (behindText lines c cs ++ rest)) (text : c'.text = c.text)
    (lastLine : (LineTable.ofSource src).lastLine c'.span = before.count '\n' + 1) :
    Alike lines (LineTable.ofSource src) (c :: cs) (c' :: placedBehind lines before c cs) ∧
      ∃ last last', (c :: cs).getLast? = some last ∧
        (c' :: placedBehind lines before c cs).getLast? = some last' ∧
        (LineTable.ofSource src).lastLine last'.span + last.gapBehind.chars.count '\n' =
          (before ++ behindText lines c cs).count '\n' + 1 := by
  induction cs generalizing c c' before with
  | nil =>
    refine ⟨.one text, c, c', rfl, rfl, ?_⟩
    rw [behindText, List.count_append, lastLine]
    omega
  | cons d ds ih =>
    obtain ⟨here, written⟩ := List.forall_mem_cons.mp written
    have atComment : src.toList = (before ++ (c.gapTo lines d).chars) ++
        (d.text.toList ++ (behindText lines d ds ++ rest)) := by
      simpa only [behindText, List.append_assoc] using parts
    obtain ⟨start, stop⟩ := here.lines atComment
    rw [← List.append_assoc] at atComment
    let d' : Comment := ⟨d.kind, ⟨bytes (before ++ (c.gapTo lines d).chars),
      bytes (before ++ (c.gapTo lines d).chars ++ d.text.toList)⟩, d.text⟩
    obtain ⟨alike, last, last', isLast, isLast', line⟩ := @ih _ d d' written atComment rfl stop
    have near : isNear (LineTable.ofSource src) c' d' = isNear lines c d := by
      have kept := @Comment.newlinesTo_le_one_iff lines c d
      apply decide_eq_decide.mpr
      rw [← kept, lastLine]
      change (LineTable.ofSource src).line (bytes (before ++ (c.gapTo lines d).chars)) ≤ _ ↔ _
      rw [start, List.count_append, Comment.count_gapTo]
      omega
    refine ⟨.cons text near alike, last, last', ?_, ?_, ?_⟩
    · rw [List.getLast?_cons_cons, isLast]
    · rw [placedBehind, List.getLast?_cons_cons, isLast']
    · simpa only [behindText, List.append_assoc] using line

/-- In print, the group that leads the package clause is the last one, if it ends in a line
comment. -/
theorem leadTexts_placed {src : String} {rest : List Char} {cs : List Comment}
    (written : ∀ d ∈ cs, IsComment d.kind d.text.toList)
    (parts : src.toList = headerText lines cs ++ 'p' :: rest) :
    leadTexts (LineTable.ofSource src)
        ((LineTable.ofSource src).line (bytes (headerText lines cs))) (placed lines cs) =
      if cs.getLast?.any (·.kind == .line) then (groupsOf lines cs).getLast?.map (·.1.texts)
      else none := by
  have size : 0 < ('p' : Char).utf8Size := Char.utf8Size_pos _
  have line : (LineTable.ofSource src).line (bytes (headerText lines cs)) =
      (headerText lines cs).count '\n' + 1 :=
    LineTable.line_ofSource parts (Nat.le_refl _) (by omega)
  cases cs with
  | nil => rfl
  | cons c cs =>
    obtain ⟨here, written⟩ := List.forall_mem_cons.mp written
    have behind : src.toList = c.text.toList ++ (behindText lines c cs ++ 'p' :: rest) := by
      rw [parts, headerText, List.append_assoc]
    have atStart : src.toList = [] ++ (c.text.toList ++ (behindText lines c cs ++ 'p' :: rest)) :=
      behind
    obtain ⟨-, stop⟩ := here.lines atStart
    let c' : Comment := ⟨c.kind, ⟨0, bytes c.text.toList⟩, c.text⟩
    obtain ⟨alike, last, last', isLast, isLast', below⟩ :=
      @placedBehind_alike lines src c.text.toList ('p' :: rest) c c' cs written behind rfl stop
    have leads : Attached.leads ((LineTable.ofSource src).line (bytes (headerText lines (c :: cs))))
        (groupsOf (LineTable.ofSource src) (placed lines (c :: cs))) = (last.kind == .line) := by
      rw [leads_groupsOf, placed, isLast', Option.any_some, line, headerText, ← below,
        Comment.gapBehind]
      cases kind : last.kind <;> simp [Gap.chars]
    have texts := congrArg List.getLast? alike.texts_groupsOf
    rw [List.getLast?_map, List.getLast?_map] at texts
    rw [leadTexts, leads, isLast, Option.any_some, placed, texts]

end Printer

namespace SourceFile

open Attached

variable {src : String} {f g : SourceFile} {t : Token}

theorem header_isComment (inSource : ReadsHeader src f t) :
    ∀ c ∈ f.header, IsComment c.kind c.text.toList := by
  intro c mem
  have inFile : c ∈ f.allComments := List.takeWhile_subset _ mem
  rw [inSource.allComments] at inFile
  exact Scan.comments_isComment inSource.faultless c inFile

/-- Before the package clause, the print is read as the header where it is printed. -/
theorem header_print (written : ∀ c ∈ f.header, IsComment c.kind c.text.toList)
    (inPrint : ReadsHeader f.print g t) :
    t.span.start = bytes (Printer.headerText f.lines f.header) ∧
      g.header = Printer.placed f.lines f.header := by
  obtain ⟨rest, text⟩ := f.print_eq_header
  obtain ⟨front, later, lexemes, between, comments, reads⟩ :=
    @Printer.all_headerText f.lines f.header ("ackage".toList ++ rest) written
  obtain ⟨kind, taken, left, isToken⟩ := read_package ("ackage".toList ++ rest)
  obtain ⟨more, rfl, -⟩ := reads.step isToken
  have scanned := (congrArg all text).trans lexemes
  have start : t.span.start = bytes (Printer.headerText f.lines f.header) := by
    have first := inPrint.first
    rw [Scan.ofSource, scanned, Scan.tokensOf_append between] at first
    obtain rfl := Option.some.inj first
    rfl
  refine ⟨start, ?_⟩
  have ascending : Ascending (all f.print.toList) := all_ascending _
  rw [scanned] at ascending
  obtain ⟨-, ahead, before⟩ := List.pairwise_append.mp ascending
  obtain ⟨behind, -⟩ := List.pairwise_cons.mp ahead
  have found : (Scan.ofSource f.print).comments =
      Printer.placed f.lines f.header ++ more.filterMap Scan.commentOf? := by
    rw [Scan.ofSource, scanned, List.filterMap_append, comments]
    rfl
  have low : ∀ c ∈ Printer.placed f.lines f.header,
      c.span.start < bytes (Printer.headerText f.lines f.header) := by
    intro c mem
    rw [← comments] at mem
    obtain ⟨l, inFront, isComment⟩ := List.mem_filterMap.mp mem
    rw [(Scan.place_of_commentOf? isComment).1]
    exact before l inFront _ List.mem_cons_self
  have high : ∀ c ∈ more.filterMap Scan.commentOf?,
      bytes (Printer.headerText f.lines f.header) < c.span.start := by
    intro c mem
    obtain ⟨l, isLater, isComment⟩ := List.mem_filterMap.mp mem
    rw [(Scan.place_of_commentOf? isComment).1]
    exact behind l isLater
  rw [header, inPrint.allComments, inPrint.packagePos, start, found,
    List.takeWhile_append_of_pos (by simpa using low)]
  cases last : more.filterMap Scan.commentOf? with
  | nil => simp
  | cons c cs =>
    have above := high c (by rw [last]; exact List.mem_cons_self)
    rw [List.takeWhile_cons_of_neg (by simp; omega), List.append_nil]

/-- What the doc says in print: the last group of the header, if it ends in a line comment. -/
theorem docTexts_print (inSource : ReadsHeader src f t) {t' : Token}
    (inPrint : ReadsHeader f.print g t') :
    g.docTexts = if f.header.getLast?.any (·.kind == .line) then
      (groupsOf f.lines f.header).getLast?.map (·.1.texts) else none := by
  have written := header_isComment inSource
  obtain ⟨start, header⟩ := header_print written inPrint
  obtain ⟨rest, text⟩ := f.print_eq_header
  rw [inPrint.docTexts, header, start]
  exact Printer.leadTexts_placed written text

/-- Printing keeps the doc of a package exactly where the header ends in a line comment if and
only if there is a doc. -/
theorem print_keeps_doc_iff (read : parse src = .ok f) (again : parse f.print = .ok g) :
    g.docTexts = f.docTexts ↔
      (f.docTexts.isSome ↔ ∃ c ∈ f.header.getLast?, c.kind = .line) := by
  obtain ⟨t, inSource⟩ := readsHeader_of_parse read
  obtain ⟨t', inPrint⟩ := readsHeader_of_parse again
  have ofPrint := docTexts_print inSource inPrint
  have ofSource := inSource.docTexts
  rw [← inSource.lines, leadTexts, leads_groupsOf] at ofSource
  have endsInLine : f.header.getLast?.any (·.kind == .line) ↔
      ∃ c ∈ f.header.getLast?, c.kind = .line := by
    rw [Option.any_eq_true]
    simp
  rw [← endsInLine, ofPrint, ofSource]
  cases isLast : f.header.getLast? with
  | none => simp
  | some c =>
    obtain ⟨d, ds, nonempty⟩ : ∃ d ds, f.header = d :: ds := by
      apply List.exists_cons_of_ne_nil
      rintro none
      simp [none] at isLast
    obtain ⟨texts, isGroup⟩ : ∃ texts,
        (groupsOf f.lines f.header).getLast?.map (·.1.texts) = some texts := by
      have formed := groupsOf_ne_nil f.lines d ds
      rw [nonempty, List.getLast?_eq_some_getLast formed]
      exact ⟨_, rfl⟩
    rw [isGroup]
    simp only [Option.any_some]
    by_cases isLine : c.kind = .line <;>
      by_cases isAbove : f.lines.lastLine c.span + 1 = f.lines.line t.span.start <;>
      simp [isLine, isAbove]

/-- A header of two groups, the second of them a doc. -/
theorem print_keeps_doc_of_two_groups :
    ∃ f g, parse "// a\n\n\n/*b*/ // c\npackage  p\n" = .ok f ∧ parse f.print = .ok g ∧
      f.docTexts = some ["/*b*/", "// c"] ∧ g.docTexts = f.docTexts := by
  have parsed : (parse "// a\n\n\n/*b*/ // c\npackage  p\n").toOption.map
      (fun f => (f.print, f.docTexts, f.header.getLast?.map (·.kind))) =
        some ("// a\n\n/*b*/ // c\npackage p\n", some ["/*b*/", "// c"], some .line) := by
    decide +kernel
  have readable : (parse "// a\n\n/*b*/ // c\npackage p\n").toOption.isSome := by decide +kernel
  cases read : parse "// a\n\n\n/*b*/ // c\npackage  p\n" with
  | error e => simp [read, Except.toOption] at parsed
  | ok f =>
    obtain ⟨text, doc, isLine⟩ : f.print = "// a\n\n/*b*/ // c\npackage p\n" ∧
        f.docTexts = some ["/*b*/", "// c"] ∧ f.header.getLast?.map (·.kind) = some .line := by
      simpa [read, Except.toOption] using parsed
    cases again : parse f.print with
    | error e => simp [← text, again, Except.toOption] at readable
    | ok g =>
      refine ⟨f, g, rfl, again, doc, (print_keeps_doc_iff read again).mpr ?_⟩
      obtain ⟨c, isLast, kind⟩ := Option.map_eq_some_iff.mp isLine
      simp [doc, isLast, kind]

/-- A comment with a blank line behind it is printed as the doc of the package. -/
theorem print_makes_doc :
    ¬ ∀ src f g, parse src = .ok f → parse f.print = .ok g → g.decls.length = f.decls.length →
      g.docTexts = f.docTexts ∧
        g.decls.map (fun d => g.groupTexts d.doc) = f.decls.map (fun d => f.groupTexts d.doc) := by
  intro kept
  have parsed : (parse "// c\n\npackage p\n").toOption.map
      (fun f => (f.print, f.docTexts, f.decls.length)) = some ("// c\npackage p\n", none, 0) := by
    decide +kernel
  have printed : (parse "// c\npackage p\n").toOption.map
      (fun g => (g.docTexts, g.decls.length)) = some (some ["// c"], 0) := by
    decide +kernel
  cases read : parse "// c\n\npackage p\n" with
  | error e => simp [read, Except.toOption] at parsed
  | ok f =>
    obtain ⟨text, noDoc, count⟩ : f.print = "// c\npackage p\n" ∧ f.docTexts = none ∧
        f.decls.length = 0 := by
      simpa [read, Except.toOption] using parsed
    cases again : parse f.print with
    | error e => simp [← text, again, Except.toOption] at printed
    | ok g =>
      obtain ⟨doc, count'⟩ : g.docTexts = some ["// c"] ∧ g.decls.length = 0 := by
        simpa [← text, again, Except.toOption] using printed
      obtain ⟨same, -⟩ := kept _ f g read again (count'.trans count.symm)
      cases doc.symm.trans (same.trans noDoc)

end SourceFile

end GoLayout
