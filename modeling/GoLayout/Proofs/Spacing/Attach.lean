import GoLayout.Proofs.Comment.Attach
import GoLayout.Proofs.Spacing.Print
import GoLayout.Proofs.Spacing.Reader

/-!
Comments attached to moved tokens. Which comments form a group and what a group is attached to is
decided by lines and by the order of tokens and comments, so where both are kept, the groups are
those from before, moved, and they are attached to the same tokens.
-/

namespace GoLayout

variable {m : Moving} {lines lines' : LineTable}

/-- The token moved. One without characters of its own ends nowhere. -/
def Token.move (m : Moving) (t : Token) : Token :=
  ⟨t.kind, ⟨m.start t.span.start, if t.kind.isSolid then m.stop t.span.stop else 0⟩⟩

namespace Attached

/-- The token without what does not matter for a token of its kind. -/
def settle (t : Attached) : Attached where
  kind := t.kind
  span := if t.kind.isSolid then t.span else .point 0
  lead := if t.kind = .eof then none else t.lead
  trail := t.trail

/-! ### Groups -/

section Groups

variable (keeps : m.KeepsLines lines lines')

include keeps

theorem takeRun_move (slack endLine : Nat) (cs : List Comment) :
    takeRun lines' slack endLine (cs.map (Comment.move m)) =
      ((takeRun lines slack endLine cs).1.map (Comment.move m),
        (takeRun lines slack endLine cs).2.1,
        (takeRun lines slack endLine cs).2.2.map (Comment.move m)) := by
  induction cs generalizing endLine with
  | nil => rfl
  | cons c cs ih =>
    have line : lines'.line (c.move m).span.start = lines.line c.span.start := keeps.line _
    have lastLine : lines'.lastLine (c.move m).span = lines.lastLine c.span := keeps.lastLine _
    simp only [List.map_cons, takeRun, line, lastLine, ih]
    split <;> rfl

theorem takeGroup_move (slack : Nat) (c : Comment) (cs : List Comment) :
    takeGroup lines' slack (c.move m) (cs.map (Comment.move m)) =
      ((takeGroup lines slack c cs).1.map (Comment.move m), (takeGroup lines slack c cs).2.1,
        (takeGroup lines slack c cs).2.2.map (Comment.move m)) := by
  have lastLine : lines'.lastLine (c.move m).span = lines.lastLine c.span := keeps.lastLine _
  simp only [takeGroup, lastLine, takeRun_move keeps]
  rfl

theorem groups_move (fuel : Nat) (cs : List Comment) :
    groups lines' fuel (cs.map (Comment.move m)) =
      (groups lines fuel cs).map fun g => (g.1.map (Comment.move m), g.2) := by
  induction fuel generalizing cs with
  | zero => rfl
  | succ fuel ih =>
    cases cs with
    | nil => rfl
    | cons c cs => simp only [List.map_cons, groups, takeGroup_move keeps, ih]

omit keeps in
theorem leads_map (f : CommentGroup → CommentGroup) (nextLine : Nat)
    (gs : List (CommentGroup × Nat)) :
    leads nextLine (gs.map fun g => (f g.1, g.2)) = leads nextLine gs := by
  unfold leads
  rw [List.getLast?_map, Option.any_map]

variable {next next' : Token} (prevLine : Nat) (cs : List Comment)

/-- The groups of a gap do not depend on the token behind it. -/
theorem gap_groups_move (next next' : Token) :
    (gap lines' prevLine next' (cs.map (Comment.move m))).groups =
      (gap lines prevLine next cs).groups.map (·.map (Comment.move m)) := by
  cases cs with
  | nil => rfl
  | cons c cs =>
    have line : lines'.line (c.move m).span.start = lines.line c.span.start := keeps.line _
    have all := groups_move keeps (c :: cs).length (c :: cs)
    simp only [List.map_cons, List.length_cons] at all
    simp only [List.map_cons, gap, line, takeGroup_move keeps, List.length_map, List.length_cons,
      groups_move keeps, all]
    split <;> simp

/-- At the end of the source, a first group on the line of the last token always trails it. -/
theorem gap_trails_move (kind : next'.kind = next.kind)
    (place : next.kind = .eof ∨ lines'.line next'.span.start = lines.line next.span.start) :
    (gap lines' prevLine next' (cs.map (Comment.move m))).trails =
      (gap lines prevLine next cs).trails := by
  cases cs with
  | nil => rfl
  | cons c cs =>
    have line : lines'.line (c.move m).span.start = lines.line c.span.start := keeps.line _
    simp only [List.map_cons, gap, line, kind, takeGroup_move keeps]
    split
    · rcases place with atEnd | same
      · simp [atEnd]
      · simp only [same]
    · rfl

theorem gap_leads_move (place : lines'.line next'.span.start = lines.line next.span.start) :
    (gap lines' prevLine next' (cs.map (Comment.move m))).leads =
      (gap lines prevLine next cs).leads := by
  cases cs with
  | nil => rfl
  | cons c cs =>
    have line : lines'.line (c.move m).span.start = lines.line c.span.start := keeps.line _
    have all := groups_move keeps (c :: cs).length (c :: cs)
    simp only [List.map_cons, List.length_cons] at all
    simp only [List.map_cons, gap, line, place, takeGroup_move keeps, List.length_map,
      List.length_cons, groups_move keeps, all]
    split
    · exact leads_map (·.map (Comment.move m)) _ _
    · dsimp only
      exact leads_map (·.map (Comment.move m)) _ _

end Groups

/-! ### Tokens with their comments -/

theorem takeWhile_move {cs : List Comment} (order : ∀ c ∈ cs, m.KeepsOrder c) (pos : Nat) :
    (cs.map (Comment.move m)).takeWhile (·.span.start < m.start pos) =
      (cs.takeWhile (·.span.start < pos)).map (Comment.move m) := by
  induction cs with
  | nil => rfl
  | cons c cs ih =>
    obtain ⟨here, behind⟩ := List.forall_mem_cons.mp order
    have same : decide ((c.move m).span.start < m.start pos) = decide (c.span.start < pos) :=
      decide_eq_decide.mpr (here pos)
    simp only [List.map_cons, List.takeWhile_cons, same]
    split
    · rw [ih behind, List.map_cons]
    · rfl

theorem dropWhile_move {cs : List Comment} (order : ∀ c ∈ cs, m.KeepsOrder c) (pos : Nat) :
    (cs.map (Comment.move m)).dropWhile (·.span.start < m.start pos) =
      (cs.dropWhile (·.span.start < pos)).map (Comment.move m) := by
  have whole : ((cs.takeWhile (·.span.start < pos)).map (Comment.move m)) ++
      (cs.map (Comment.move m)).dropWhile (·.span.start < m.start pos) =
        cs.map (Comment.move m) := by
    rw [← takeWhile_move order, List.takeWhile_append_dropWhile]
  have parts : (cs.takeWhile (·.span.start < pos)).map (Comment.move m) ++
      (cs.dropWhile (·.span.start < pos)).map (Comment.move m) = cs.map (Comment.move m) := by
    rw [← List.map_append, List.takeWhile_append_dropWhile]
  exact List.append_cancel_left (whole.trans parts.symm)

/-- Attaching moved comments to moved tokens. The end of the source may be anywhere behind them. -/
theorem attach_move (keeps : m.KeepsLines lines lines') {cs : List Comment}
    (order : ∀ c ∈ cs, m.KeepsOrder c) {e e' : Token} (atEnd : EndsBehind cs e)
    (atEnd' : EndsBehind (cs.map (Comment.move m)) e') (prevLine index : Nat) {ts : List Token}
    (goesOn : ∀ t ∈ ts, t.kind ≠ .eof) :
    (attach lines' prevLine index (ts.map (Token.move m) ++ [e']) (cs.map (Comment.move m))).1.map
        settle =
      (attach lines prevLine index (ts ++ [e]) cs).1.map (move m) ∧
    (attach lines' prevLine index (ts.map (Token.move m) ++ [e']) (cs.map (Comment.move m))).2 =
      (attach lines prevLine index (ts ++ [e]) cs).2.map (·.map (Comment.move m)) := by
  induction ts generalizing prevLine index cs with
  | nil =>
    have kind : e'.kind = e.kind := atEnd'.1.trans atEnd.1.symm
    have groups := gap_groups_move keeps prevLine cs e e'
    have trails := gap_trails_move keeps prevLine cs kind (Or.inl atEnd.1)
    simp only [List.map_nil, List.nil_append, attach, List.span_eq_takeWhile_dropWhile,
      atEnd.takeWhile_eq, atEnd'.takeWhile_eq, groups, trails, List.append_nil, and_true]
    simp [settle, move, atEnd.1, atEnd'.1, TokenKind.isSolid]
  | cons t ts ih =>
    obtain ⟨here, goesOn⟩ := List.forall_mem_cons.mp goesOn
    let before := cs.takeWhile (·.span.start < t.span.start)
    let behind := cs.dropWhile (·.span.start < t.span.start)
    have later : behind ⊆ cs := List.dropWhile_subset _
    have line : lines'.line (t.move m).span.start = lines.line t.span.start := keeps.line _
    have rest := fun index => ih (fun c mem => order c (later mem)) (atEnd.subset later)
      (atEnd'.subset (List.map_subset _ later)) (lines.line t.span.start) index goesOn
    have kind : (t.move m).kind = t.kind := rfl
    have groups := gap_groups_move keeps prevLine before t (t.move m)
    have trails := gap_trails_move keeps prevLine before kind (Or.inr line)
    have leads := gap_leads_move keeps prevLine before line
    have taken : (cs.map (Comment.move m)).takeWhile (·.span.start < (t.move m).span.start) =
      before.map (Comment.move m) := takeWhile_move order t.span.start
    have left : (cs.map (Comment.move m)).dropWhile (·.span.start < (t.move m).span.start) =
      behind.map (Comment.move m) := dropWhile_move order t.span.start
    simp only [List.map_cons, List.cons_append, attach, List.span_eq_takeWhile_dropWhile, taken,
      left, groups, trails, leads, line, List.length_map, rest, List.map_append, and_true, before,
      behind]
    refine congrArg (· :: _) ?_
    cases solid : t.kind.isSolid <;>
      simp [settle, move, Token.move, here, Moving.span, solid]

end Attached

end GoLayout
