import GoLayout.Proofs.Layout.Comments
import GoLayout.Proofs.Layout.Sober

/-!
The print of a file has canonical white space, whatever its tree and its line table, and no part of
a tree is printed so that the indentation is another one behind it, or below zero on the way.
-/

namespace GoLayout

open Layout

/-! ### Indentation -/

namespace Layout

/-- Items that are expressions, types, fields, statements or specs, wherever they stand. -/
inductive OfNode (lines : LineTable) : Item → Prop where
  | expr (extent : Span) (e : Expr) : OfNode lines ⟨extent, e.layout lines⟩
  | type (extent : Span) (t : TypeExpr) : OfNode lines ⟨extent, t.layout lines⟩
  | field (extent : Span) (f : Field) : OfNode lines ⟨extent, f.layout lines⟩
  | stmt (extent : Span) (s : Stmt) : OfNode lines ⟨extent, s.layout lines⟩
  | spec (extent : Span) (s : Spec) : OfNode lines ⟨extent, s.layout lines⟩

/-- All that prints something leaves the indentation as it was, and does not take it below zero: the
steps of the printer, the lists and blocks, and every kind of node. -/
structure AllBalanced (lines : LineTable) : Prop where
  token : ∀ span text sep, (Layout.token span text sep).Balanced lines
  extra : ∀ text sep, (Layout.extra text sep).Balanced lines
  optional : ∀ span text sep, (Layout.optional span text sep).Balanced lines
  ident : ∀ name sep, (Layout.ident name sep).Balanced lines
  gap : ∀ pos sep, (Layout.gap pos sep).Balanced lines
  comments : ∀ limit sep, (Layout.comments limit sep).Balanced lines
  bracketed : ∀ brackets left right items spread sep, (∀ i ∈ items, OfNode lines i) →
    (Layout.bracketed lines brackets left right items spread sep).Balanced lines
  commaSeparated : ∀ items first, (∀ i ∈ items, OfNode lines i) →
    (Layout.commaSeparated lines items first).Balanced lines
  braced : ∀ lbrace rbrace nested items, (∀ i ∈ items, OfNode lines i) →
    (Layout.braced lines lbrace rbrace nested items).Balanced lines
  clauseBody : ∀ items, (∀ i ∈ items, OfNode lines i) → (Layout.clauseBody items).Balanced lines
  members : ∀ brackets items, (∀ i ∈ items, OfNode lines i) →
    (Layout.members lines brackets items).Balanced lines
  specs : ∀ lparen rparen items, (∀ i ∈ items, OfNode lines i) →
    (Layout.specs lines lparen rparen items).Balanced lines
  expr : ∀ e : Expr, (e.layout lines).Balanced lines
  type : ∀ t : TypeExpr, (t.layout lines).Balanced lines
  field : ∀ f : Field, (f.layout lines).Balanced lines
  signature : ∀ s : Signature, (s.layout lines).Balanced lines
  results : ∀ results, (FieldList.results lines results).Balanced lines
  typeParams : ∀ params, (FieldList.typeParams lines params).Balanced lines
  block : ∀ nested, ∀ b : Block, (b.layout lines nested).Balanced lines
  stmt : ∀ s : Stmt, (s.layout lines).Balanced lines
  spec : ∀ s : Spec, (s.layout lines).Balanced lines
  genDecl : ∀ d : GenDecl, (d.layout lines).Balanced lines
  funcDecl : ∀ f : FuncDecl, (f.layout lines).Balanced lines
  decl : ∀ d : Decl, (d.layout lines).Balanced lines
  file : ∀ f : SourceFile, f.lines = lines → f.layout.Balanced lines

section AnyText

variable {lines : LineTable}

/-- Any text, where no word is ruled out. -/
theorem isSpelling_any (text : String) : IsSpelling (fun _ => True) text := .word trivial

theorem Word.all_any (words : List Word) : Word.All (fun _ => True) words := fun _ _ => trivial

theorem isModest_any (sep : Sep) : (sep.isModest || true) = true := Bool.or_true _

/-- Of a layout with any texts and separations only the indentation is told. -/
theorem balanced_any {l : Layout} (h : l.Sober (fun _ => True) true 0 0) : l.Balanced lines :=
  h.balanced

theorem OfNode.allSober {items : List Item} (h : ∀ i ∈ items, OfNode lines i) :
    Item.AllSober (fun _ => True) true items := by
  intro i mem
  cases h i mem with
  | expr extent e => exact e.sober (Word.all_any _)
  | type extent t => exact t.sober (Word.all_any _)
  | field extent f => exact f.sober (Word.all_any _)
  | stmt extent s => exact s.sober (Word.all_any _)
  | spec extent s => exact s.sober (Word.all_any _)

/-- Each of these is sober, so the indentation is lowered in it as often as it is raised. -/
theorem allBalanced (lines : LineTable) : AllBalanced lines where
  token _ text sep := balanced_any (.token (isSpelling_any text) (isModest_any sep))
  extra text sep := balanced_any (.extra (isSpelling_any text) (isModest_any sep))
  optional span text sep :=
    balanced_any (sober_optional span (isSpelling_any text) (isModest_any sep))
  ident name sep := balanced_any (.token (isSpelling_any name.text) (isModest_any sep))
  gap _ sep := balanced_any (.gap (isModest_any sep))
  comments _ sep := balanced_any (.comments (isModest_any sep))
  bracketed _ left right _ _ sep ofNodes :=
    balanced_any (sober_bracketed (isSpelling_any left) (isSpelling_any right) (isModest_any sep)
      (OfNode.allSober ofNodes))
  commaSeparated _ first ofNodes :=
    balanced_any (sober_commaSeparated (isModest_any first) (OfNode.allSober ofNodes))
  braced _ _ nested _ ofNodes := balanced_any (sober_braced nested (OfNode.allSober ofNodes))
  clauseBody _ ofNodes := balanced_any (sober_clauseBody (OfNode.allSober ofNodes))
  members _ _ ofNodes := balanced_any (sober_members (OfNode.allSober ofNodes))
  specs _ _ _ ofNodes := balanced_any (sober_specs (OfNode.allSober ofNodes))
  expr e := balanced_any (e.sober (Word.all_any _))
  type t := balanced_any (t.sober (Word.all_any _))
  field f := balanced_any (f.sober (Word.all_any _))
  signature s := balanced_any (s.sober (Word.all_any _))
  results results := balanced_any (FieldList.sober_results results (Word.all_any _))
  typeParams params := balanced_any (FieldList.sober_typeParams params (Word.all_any _))
  block nested b := balanced_any (b.sober nested (Word.all_any _))
  stmt s := balanced_any (s.sober (Word.all_any _))
  spec s := balanced_any (s.sober (Word.all_any _))
  genDecl d := balanced_any (d.sober (Word.all_any _))
  funcDecl f := balanced_any (f.sober (Word.all_any _))
  decl d := balanced_any (d.sober (Word.all_any _))
  file f _ := balanced_any (f.sober (Word.all_any _))

end AnyText

end Layout

/-! ### Files -/

namespace SourceFile

/-- What the pieces of a printed file say: comments of the file, and tokens. -/
def IsText (f : SourceFile) (q : Piece) : Prop :=
  if q.isComment then ∃ c ∈ f.allComments, c.text = q.text
  else IsSpelling (fun text => ∃ w ∈ f.words, w.text = text) q.text

/-- Print has canonical white space. A printed file is the texts of its pieces, comments and
tokens, with nothing, a space, or one or two newlines and tabs between two of them, and a newline
behind the last one. Whatever is printed, with any line table and to any sink, the indentation is
the same behind it as before it and never below zero on the way. -/
theorem print_canonical (f : SourceFile) :
    (∃ first rest, f.pieces = first :: rest ∧
      f.print.toList = first.text.toList ++ Piece.join rest ++ ['\n'] ∧
      ∀ q ∈ rest, q.gap.IsCanonical ∧ Text.IsClean q.gap.chars) ∧
    (∀ q ∈ f.pieces, f.IsText q) ∧
    ∀ lines : LineTable, AllBalanced lines := by
  have spelled : Word.All (fun text => ∃ w ∈ f.words, w.text = text) f.words :=
    fun w mem => ⟨w, mem, rfl⟩
  have set : (Printer.print f.lines f.layout (.start [] f.allComments)).IsSober
      fun text => ∃ w ∈ f.words, w.text = text :=
    (Printer.isSober_start f.allComments).print (f.sober spelled)
  have gaps : ∀ q ∈ f.pieces, q.gap.IsCanonical := fun q mem =>
    set.gaps q (List.mem_reverse.mp mem)
  refine ⟨?_, fun q mem => ?_, allBalanced⟩
  · obtain ⟨first, rest, pieces⟩ := List.exists_cons_of_ne_nil f.pieces_ne_nil
    have noGap : first.gap = .none := by
      apply set.first first
      rw [← List.head?_reverse]
      exact congrArg List.head? pieces
    refine ⟨first, rest, pieces, ?_, fun q mem => ?_⟩
    · rw [toList_print, pieces, Piece.join, List.flatMap_cons, Piece.chars, noGap]
      rfl
    · have canonical := gaps q (pieces ▸ .tail first mem)
      exact ⟨canonical, canonical.isClean⟩
  · unfold IsText
    split
    next isComment =>
      obtain ⟨behindLine, sets⟩ : ∃ behindLine,
          Printer.Sets f.pieces.reverse f.allComments.reverse behindLine :=
        Layout.sets_pieces f.lines f.allComments _ .line
      have said : q.text ∈ Piece.commentTexts f.pieces.reverse :=
        List.mem_map_of_mem (List.mem_filter.mpr ⟨List.mem_reverse.mpr mem, isComment⟩)
      rw [sets.commentTexts_eq] at said
      obtain ⟨c, isOf, text⟩ := List.mem_map.mp said
      exact ⟨c, List.mem_reverse.mp isOf, text⟩
    next isToken =>
      exact set.texts q (List.mem_reverse.mp mem) (by simpa using isToken)

end SourceFile

end GoLayout
