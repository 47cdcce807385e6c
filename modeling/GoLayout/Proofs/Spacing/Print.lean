import GoLayout.Proofs.Spacing.Layout

/-!
Printing a tree whose tokens were moved. The printer asks for the line of a place and for the
comments before it, and for nothing else; where both stay as they are, so does the print.
-/

namespace GoLayout

variable {m : Moving} {lines lines' : LineTable}

/-- The comment with its place moved. -/
def Comment.move (m : Moving) (c : Comment) : Comment := ⟨c.kind, m.span c.span, c.text⟩

/-- Whatever is behind the start of the comment stays behind it, and all else before it. -/
def Moving.KeepsOrder (m : Moving) (c : Comment) : Prop :=
  ∀ pos, m.start c.span.start < m.start pos ↔ c.span.start < pos

namespace Printer

variable {σ : Type} [Sink σ]

theorem pending_flush_suffix (limit : Option Nat) (cs : List Comment) (sep : Sep) (p : Printer σ) :
    (flush lines limit cs sep p).2.pending <:+ cs := by
  induction cs generalizing sep p with
  | nil => exact List.suffix_refl []
  | cons c cs ih =>
    unfold flush
    split
    · exact (ih _ _).trans (List.suffix_cons c cs)
    · exact List.suffix_refl _

/-- The comments not printed yet are the last ones of those before. -/
theorem pending_print_suffix (l : Layout) (p : Printer σ) :
    (print lines l p).pending <:+ p.pending := by
  induction l generalizing p with
  | nil => exact List.suffix_refl _
  | token span text sep => exact pending_flush_suffix (some span.start) _ sep p
  | extra text sep => exact List.suffix_refl _
  | gap pos sep => exact pending_flush_suffix (some pos) _ sep p
  | comments limit sep => exact pending_flush_suffix limit _ sep p
  | lastComma pos =>
    unfold print
    split <;> exact List.suffix_refl _
  | append a b iha ihb => exact (ihb _).trans (iha _)
  | indent | dedent => exact List.suffix_refl _
  | outdent body ih => exact ih _

/-- The printer with the places of the comments it has not printed moved. -/
def move (m : Moving) (p : Printer σ) : Printer σ :=
  { p with pending := p.pending.map (Comment.move m) }

theorem isBefore_move {c : Comment} (order : m.KeepsOrder c) (limit : Option Nat) :
    isBefore (c.move m).span.start (limit.map m.start) = isBefore c.span.start limit := by
  cases limit with
  | none => rfl
  | some pos => exact decide_eq_decide.mpr (order pos)

variable (keeps : m.KeepsLines lines lines')

include keeps

theorem comment_move (p : Printer σ) (sep : Sep) (c : Comment) :
    (p.move m).comment lines' sep (c.move m) =
      ((p.comment lines sep c).1, (p.comment lines sep c).2.move m) := by
  have line : lines'.line (c.move m).span.start = lines.line c.span.start := keeps.line _
  have lastLine : lines'.lastLine (c.move m).span = lines.lastLine c.span := keeps.lastLine _
  unfold comment
  rw [line, lastLine]
  rfl

theorem flush_move (limit : Option Nat) {cs : List Comment}
    (order : ∀ c ∈ cs, m.KeepsOrder c) (sep : Sep) (p : Printer σ) :
    flush lines' (limit.map m.start) (cs.map (Comment.move m)) sep (p.move m) =
      ((flush lines limit cs sep p).1, (flush lines limit cs sep p).2.move m) := by
  induction cs generalizing sep p with
  | nil => rfl
  | cons c cs ih =>
    obtain ⟨here, behind⟩ := List.forall_mem_cons.mp order
    simp only [List.map_cons, flush, isBefore_move here, comment_move keeps]
    split
    · exact ih behind _ _
    · rfl

theorem toPos_move (pos : Nat) (sep : Sep) {p : Printer σ}
    (order : ∀ c ∈ p.pending, m.KeepsOrder c) :
    (p.move m).toPos lines' (m.start pos) sep = (p.toPos lines pos sep).move m := by
  have flushed := flush_move keeps (some pos) order sep p
  have comments : (p.move m).comments lines' (some (m.start pos)) sep =
      ((p.comments lines (some pos) sep).1,
        (p.comments lines (some pos) sep).2.move m) := flushed
  rw [toPos, comments, keeps.line]
  rfl

/-- Printing depends on places by their lines and by the comments before them alone. -/
theorem print_move (l : Layout) {p : Printer σ}
    (order : ∀ c ∈ p.pending, m.KeepsOrder c) :
    print lines' (l.move m) (p.move m) = (print lines l p).move m := by
  induction l generalizing p with
  | nil => rfl
  | token span text sep =>
    have before := toPos_move keeps span.start sep order
    simp only [Layout.move_token, print, token, Moving.start_span, keeps.lastLine, before]
    rfl
  | extra text sep => rfl
  | gap pos sep => exact toPos_move keeps pos sep order
  | comments limit sep => exact congrArg Prod.snd (flush_move keeps limit order sep p)
  | lastComma pos =>
    have lastLine : (p.move m).lastLine = p.lastLine := rfl
    simp only [Layout.move_lastComma, print, keeps.line, lastLine]
    split <;> rfl
  | append a b iha ihb =>
    change print lines' (b.move m) (print lines' (a.move m) (p.move m)) = _
    rw [iha order, ihb]
    · rfl
    · intro c mem
      exact order c ((pending_print_suffix a p).mem mem)
  | indent | dedent => rfl
  | outdent body ih =>
    have inner : print lines' (body.move m) (p.move m).outdented =
        (print lines body p.outdented).move m := ih (p := p.outdented) order
    rw [Layout.move_outdent, print, inner]
    rfl

end Printer

/-- The file with its places moved, over another line table. -/
def SourceFile.move (m : Moving) (lines : LineTable) (f : SourceFile) : SourceFile :=
  { packagePos := m.span f.packagePos
    name := m.ident f.name
    doc := f.doc
    decls := f.decls.map (·.move m)
    comments := f.comments.map (·.map (Comment.move m))
    lines := lines }

theorem SourceFile.layout_move {f : SourceFile} (keeps : m.KeepsLines f.lines lines') :
    (f.move m lines').layout = f.layout.move m := by
  simp only [SourceFile.layout, SourceFile.move, Decl.layouts_move keeps, Layout.move_append,
    Layout.move_token, Layout.move_ident, Layout.move_comments, Option.map_none]

theorem SourceFile.allComments_move (f : SourceFile) :
    (f.move m lines').allComments = f.allComments.map (Comment.move m) := by
  simp only [SourceFile.allComments, SourceFile.move, List.flatMap_map, List.map_flatMap]
  rfl

/-- A file prints the same wherever its tokens stand, if they keep their lines and stay on their
side of every comment. -/
theorem SourceFile.print_move {f : SourceFile} (keeps : m.KeepsLines f.lines lines')
    (order : ∀ c ∈ f.allComments, m.KeepsOrder c) : (f.move m lines').print = f.print := by
  have printed : Printer.print lines' (f.layout.move m)
      (.start "" (f.allComments.map (Comment.move m))) = _ :=
    Printer.print_move keeps f.layout (p := .start "" f.allComments) order
  have emitted : (f.move m lines').print =
      (let p := Printer.print lines' (f.layout.move m)
        (.start "" (f.allComments.map (Comment.move m)))
      if p.started then Emitter.emit p.out "\n" else p.out) := by
    rw [SourceFile.print, SourceFile.emit, SourceFile.layout_move keeps,
      SourceFile.allComments_move]
    rfl
  rw [emitted, printed]
  rfl

end GoLayout
