import GoLayout.Proofs.Form.File
import GoLayout.Proofs.LineTable.History
import GoLayout.Proofs.Order.File

/-!
The comments behind specs, struct fields and interface elements. A semicolon ends an entry, and the
group linked to the entry is the one that trails the semicolon. So a comment in front of the
semicolon is not linked, although a line comment in its place is: the semicolon at the end of a line
stands before a line comment and behind a block comment.
-/

namespace GoLayout

namespace Attached

variable {lines : LineTable} {prevLine index : Nat} {ts : List Token} {cs : List Comment}

/-- The comments that start between two tokens. -/
def between (cs : List Comment) (t next : Token) : List Comment :=
  cs.filter fun c => t.span.start ≤ c.span.start && c.span.start < next.span.start

/-- The group that trails a token, by the comments between it and the next one. -/
def trailing? (lines : LineTable) (cs : List Comment) (t next : Token) : Option CommentGroup :=
  let gap := gap lines (lines.line t.span.start) next (between cs t next)
  if gap.trails then gap.groups.head? else none

theorem between_dropWhile {t next : Token} {n : Nat}
    (ascending : cs.Pairwise fun c c' => c.span.start ≤ c'.span.start) (below : n ≤ t.span.start) :
    between (cs.dropWhile (·.span.start < n)) t next = between cs t next := by
  rw [dropWhile_lt_eq_filter (fun c : Comment => c.span.start) ascending, between,
    List.filter_filter]
  refine List.filter_congr fun c _ => ?_
  by_cases behind : t.span.start ≤ c.span.start
  · simp [behind, Nat.le_trans below behind]
  · simp [behind]

/-- The gap before the first token. -/
def firstGap (lines : LineTable) (prevLine : Nat) (t : Token) (cs : List Comment) : Gap :=
  gap lines prevLine t (cs.takeWhile (·.span.start < t.span.start))

theorem firstGap_dropWhile {prevLine : Nat} {t next : Token}
    (ascending : cs.Pairwise fun c c' => c.span.start ≤ c'.span.start) :
    firstGap lines prevLine next (cs.dropWhile (·.span.start < t.span.start)) =
      gap lines prevLine next (between cs t next) := by
  have behind := ascending.sublist (List.dropWhile_sublist (·.span.start < t.span.start))
  rw [firstGap, takeWhile_lt_eq_filter (fun c : Comment => c.span.start) behind,
    dropWhile_lt_eq_filter (fun c : Comment => c.span.start) ascending, between, List.filter_filter]
  congr 1
  exact List.filter_congr fun c _ => Bool.and_comm _ _

theorem attach_cons (t : Token) :
    attach lines prevLine index (t :: ts) cs =
      (⟨t, if (firstGap lines prevLine t cs).leads then
          some (index + (firstGap lines prevLine t cs).groups.length - 1) else none,
        if (firstGap lines prevLine t cs).trails then some index else none⟩ ::
        (attach lines (lines.line t.span.start)
          (index + (firstGap lines prevLine t cs).groups.length) ts
          (cs.dropWhile (·.span.start < t.span.start))).1,
      (firstGap lines prevLine t cs).groups ++ (attach lines (lines.line t.span.start)
          (index + (firstGap lines prevLine t cs).groups.length) ts
          (cs.dropWhile (·.span.start < t.span.start))).2) := by
  rw [attach, List.span_eq_takeWhile_dropWhile]
  rfl

/-- The groups between two tokens are those of the gap between them, and the first of them trails
the former token as the gap tells. -/
theorem attach_gap (rising : ts.Pairwise fun t t' => t.span.start ≤ t'.span.start)
    (ascending : cs.Pairwise fun c c' => c.span.start ≤ c'.span.start)
    {front rest : List Attached} {t next : Attached}
    (parts : (attach lines prevLine index ts cs).1 = front ++ t :: next :: rest) :
    ∃ before behind, (attach lines prevLine index ts cs).2 = before ++
        ((gap lines (lines.line t.span.start) next.toToken (between cs t.toToken next.toToken)).groups
          ++ behind) ∧
      next.trail = if (gap lines (lines.line t.span.start) next.toToken
        (between cs t.toToken next.toToken)).trails then some (index + before.length) else none := by
  induction front generalizing ts cs prevLine index with
  | nil =>
    match ts with
    | [] => cases parts
    | [_] =>
      rw [attach_cons] at parts
      cases (List.cons.inj parts).2
    | u :: u' :: ts =>
      rw [attach_cons, attach_cons] at parts ⊢
      dsimp only at parts ⊢
      rw [firstGap_dropWhile ascending] at parts ⊢
      obtain ⟨isFirst, behind⟩ := List.cons.inj parts
      obtain ⟨isSecond, -⟩ := List.cons.inj behind
      subst isFirst isSecond
      exact ⟨_, _, rfl, rfl⟩
  | cons first front ih =>
    cases ts with
    | nil => cases parts
    | cons u ts =>
      obtain ⟨low, rising⟩ := List.pairwise_cons.mp rising
      rw [attach_cons] at parts ⊢
      dsimp only at parts ⊢
      obtain ⟨-, parts⟩ := List.cons.inj parts
      have isIn : t.toToken ∈ ts := by
        rw [← attach_tokens lines _ _ ts _, parts]
        simp
      obtain ⟨before, behind, groups, trail⟩ :=
        ih rising (ascending.sublist (List.dropWhile_sublist _)) parts
      rw [between_dropWhile ascending (low _ isIn)] at groups trail
      refine ⟨(firstGap lines prevLine u cs).groups ++ before, behind, ?_, ?_⟩
      · rw [groups, List.append_assoc]
      · rw [trail, List.length_append, Nat.add_assoc]

theorem groups_ne_nil_of_trails {next : Token} (h : (gap lines prevLine next cs).trails) :
    (gap lines prevLine next cs).groups ≠ [] := by
  cases cs with
  | nil => cases h
  | cons c cs =>
    unfold gap at h ⊢
    dsimp only at h ⊢
    split
    · exact List.cons_ne_nil _ _
    · rename_i other
      rw [if_neg other] at h
      cases h

/-- The link to what trails a token. -/
theorem trail_bind (rising : ts.Pairwise fun t t' => t.span.start ≤ t'.span.start)
    (ascending : cs.Pairwise fun c c' => c.span.start ≤ c'.span.start)
    {groups : List CommentGroup} {front rest : List Attached} {t next : Attached}
    (attached : attach lines prevLine 0 ts cs = (front ++ t :: next :: rest, groups)) :
    next.trail.bind (groups[·]?) = trailing? lines cs t.toToken next.toToken := by
  obtain ⟨before, behind, parts, trail⟩ := attach_gap rising ascending (congrArg Prod.fst attached)
  rw [attached] at parts
  dsimp only at parts
  rw [trail, trailing?]
  split
  · rename_i trails
    have some := groups_ne_nil_of_trails trails
    rw [Option.bind_some, parts, Nat.zero_add, List.getElem?_append_right (Nat.le_refl _),
      Nat.sub_self, ← List.head?_eq_getElem?, List.head?_append_of_ne_nil _ some]
  · rfl

/-- The first comment behind a token trails it with those that follow it on its line, unless the
next token follows them there. -/
theorem trailing?_eq_some {t next : Token} {c : Comment} {rest : List Comment}
    (comments : between cs t next = c :: rest)
    (line : lines.line c.span.start = lines.line t.span.start)
    (ends : next.kind = .mark .semi ∨ next.kind = .eof ∨
      lines.line next.span.start ≠ (takeGroup lines 0 c rest).2.1) :
    trailing? lines cs t next = some (takeGroup lines 0 c rest).1 := by
  rw [trailing?, comments, gap]
  dsimp only
  rw [if_pos (beq_iff_eq.mpr line)]
  refine if_pos ?_
  simp only [Bool.or_eq_true, beq_iff_eq, bne_iff_ne]
  grind

end Attached

/-- The tokens of a source with its end. -/
def Scan.tokensToEnd (src : String) : List Token :=
  (Scan.ofSource src).tokens ++ [⟨.eof, .point src.utf8ByteSize⟩]

theorem Scan.tokensToEnd_apart (src : String) :
    (tokensToEnd src).Pairwise fun t t' => t.span.stop ≤ t'.span.start := by
  refine List.pairwise_append.mpr ⟨tokens_apart, List.pairwise_singleton _ _, fun t mem e isEnd => ?_⟩
  rw [List.mem_singleton.mp isEnd]
  exact (tokens_solid t mem).1

/-- An entry that stops here, by its last token and those behind it. -/
structure EntryEnd (src : String) (stop : Nat) (last t : Token) (behind : List Token) : Prop where
  parts : ∃ front, Scan.tokensToEnd src = front ++ last :: t :: behind
  solid : last.kind.isSolid
  stops : last.span.stop = stop

theorem EntryEnd.le {src : String} {stop : Nat} {last t : Token} {behind : List Token}
    (h : EntryEnd src stop last t behind) : stop ≤ t.span.start := by
  obtain ⟨front, parts⟩ := h.parts
  have apart := Scan.tokensToEnd_apart src
  rw [parts] at apart
  rw [← h.stops]
  exact (List.pairwise_cons.mp (List.pairwise_append.mp apart).2.1).1 t List.mem_cons_self

namespace SourceFile

open Attached (trailing? between takeGroup)

theorem exists_entryEnd {src : String} {f : SourceFile} (read : parse src = .ok f) :
    ∀ m ∈ f.nodes, ∀ entry ∈ m.entries, ∃ last t behind, EntryEnd src entry.1 last t behind ∧
      (t.kind = .mark .semi ∧ (∃ next ∈ behind.head?, entry.2.bind (f.comments[·]?) =
          trailing? (LineTable.ofSource src) (Scan.ofSource src).comments t next) ∨
        (t.kind = .mark .rparen ∨ t.kind = .mark .rbrace ∨ t.kind = .eof) ∧
          entry.2.bind (f.comments[·]?) =
            trailing? (LineTable.ofSource src) (Scan.ofSource src).comments last t) := by
  intro m mem entry inNode
  obtain ⟨input, made, closed, formed, comments⟩ := formed_of_parse read
  obtain ⟨-, -, attached⟩ := Grammar.Input.of_ofSource made
  have orderly := Grammar.Input.orderly (P := fun _ => True) made fun _ _ _ => trivial
  have tokens : input.cursor.tokens = Scan.tokensToEnd src := Grammar.Input.ofSource_tokens made
  have rising : (Scan.tokensToEnd src).Pairwise fun t t' => t.span.start ≤ t'.span.start := by
    rw [← tokens]
    exact orderly.apart.imp_of_mem fun here _ apart => Nat.le_trans (orderly.forward _ here) apart
  have ascending := (Scan.comments_ascending src).imp Nat.le_of_lt
  rw [comments]
  obtain ⟨front, last, rest, parts, solid, stops, closes⟩ := (formed m mem).entries entry inNode
  have parts : input.tokens = front ++ last :: rest := parts
  have all : Scan.tokensToEnd src = (front ++ last :: rest).map (·.toToken) := by
    rw [← parts, ← tokens]
    rfl
  rw [parts] at attached
  rw [List.map_append] at all
  cases closes with
  | @semi t next rest kind trail =>
    refine ⟨last.toToken, t.toToken, (next :: rest).map (·.toToken), ⟨⟨_, all⟩, solid, stops⟩,
      .inl ⟨kind, next.toToken, rfl, ?_⟩⟩
    rw [trail]
    have attached : Attached.attach (LineTable.ofSource src) 0 0 (Scan.tokensToEnd src)
        (Scan.ofSource src).comments = ((front ++ [last]) ++ t :: next :: rest, input.comments) := by
      rw [List.append_assoc]
      exact attached
    exact Attached.trail_bind rising ascending attached
  | @closer t rest kind trail =>
    refine ⟨last.toToken, t.toToken, rest.map (·.toToken), ⟨⟨_, all⟩, solid, stops⟩,
      .inr ⟨kind, ?_⟩⟩
    rw [trail]
    exact Attached.trail_bind rising ascending attached

/-- The comments between the end of an entry and a token behind it are those between its semicolon
and that token, if the first of them is. -/
theorem between_eq {cs rest : List Comment} {c : Comment} {t next : Token} {stop : Nat}
    (ascending : cs.Pairwise fun c c' => c.span.start ≤ c'.span.start) (le : stop ≤ t.span.start)
    (first : (cs.filter fun c => stop ≤ c.span.start && c.span.start < next.span.start) = c :: rest)
    (behind : t.span.start ≤ c.span.start) : between cs t next = c :: rest := by
  have fewer : between cs t next = (c :: rest).filter fun c => t.span.start ≤ c.span.start := by
    rw [← first, between, List.filter_filter]
    refine List.filter_congr fun c _ => ?_
    by_cases low : t.span.start ≤ c.span.start
    · simp [low, Nat.le_trans le low]
    · simp [low]
  have inOrder := ascending.sublist (List.filter_sublist (l := cs)
    (p := fun c => stop ≤ c.span.start && c.span.start < next.span.start))
  rw [first] at inOrder
  rw [fewer, List.filter_eq_self]
  refine List.forall_mem_cons.mpr ⟨by simpa using behind, fun d mem => ?_⟩
  simpa using Nat.le_trans behind ((List.pairwise_cons.mp inOrder).1 d mem)

/-- Each spec, struct field and interface element is linked to the group that trails the semicolon
at its end, or, where it has none, its last token. So if the first comment behind its last token
stands on the line where that token ends and behind the semicolon, and the next token neither comes
before the comment nor follows, on its line, those that go with it, the entry is linked to the group
that begins with this comment. -/
theorem entries_linked {src : String} {f : SourceFile} (read : parse src = .ok f) :
    ∀ m ∈ f.nodes, ∀ entry ∈ m.entries, ∃ last t behind, EntryEnd src entry.1 last t behind ∧
      (t.kind = .mark .semi ∧ (∃ next ∈ behind.head?, entry.2.bind (f.comments[·]?) =
          trailing? (LineTable.ofSource src) (Scan.ofSource src).comments t next) ∨
        (t.kind = .mark .rparen ∨ t.kind = .mark .rbrace ∨ t.kind = .eof) ∧
          entry.2.bind (f.comments[·]?) =
            trailing? (LineTable.ofSource src) (Scan.ofSource src).comments last t) ∧
      ∀ next ∈ behind.head?, ∀ c rest, t.kind = .mark .semi → t.span.start ≤ c.span.start →
        ((Scan.ofSource src).comments.filter fun c =>
          entry.1 ≤ c.span.start && c.span.start < next.span.start) = c :: rest →
        (LineTable.ofSource src).line c.span.start = (LineTable.ofSource src).line (entry.1 - 1) →
        (next.kind = .mark .semi ∨ next.kind = .eof ∨ (LineTable.ofSource src).line next.span.start ≠
          (takeGroup (LineTable.ofSource src) 0 c rest).2.1) →
        ∃ i g, entry.2 = some i ∧ f.comments[i]? = some g ∧ g.first = c := by
  intro m mem entry inNode
  obtain ⟨last, t, behind, ends, linked⟩ := exists_entryEnd read m mem entry inNode
  refine ⟨last, t, behind, ends, linked, fun next isNext c rest isSemi after first line apart => ?_⟩
  rcases linked with ⟨-, next', isNext', linked⟩ | ⟨other, -⟩
  · obtain rfl := Option.mem_unique isNext isNext'
    have ascending := (Scan.comments_ascending src).imp Nat.le_of_lt
    have le := ends.le
    have ordered := LineTable.ordered_ofSource src
    have onLine : (LineTable.ofSource src).line c.span.start =
        (LineTable.ofSource src).line t.span.start := by
      refine Nat.le_antisymm ?_ (ordered.line_mono after)
      rw [line]
      exact ordered.line_mono (Nat.le_trans (Nat.sub_le _ 1) le)
    rw [Attached.trailing?_eq_some (between_eq ascending le first after) onLine apart] at linked
    obtain ⟨i, isLink, found⟩ := Option.bind_eq_some_iff.mp linked
    exact ⟨i, _, isLink, found, rfl⟩
  · rw [isSemi] at other
    rcases other with other | other | other <;> cases other

/-- A line comment behind a spec, and one behind a field in braces on one line. -/
theorem entries_linked_of_comments :
    ∃ f, parse "package p\n\nvar x int // c\ntype T struct \x7b x int /* d */ \x7d\n" = .ok f ∧
      (f.nodes.flatMap Node.entries).length = 3 ∧
      ∀ m ∈ f.nodes, ∀ entry ∈ m.entries, ∃ last t behind, EntryEnd
        "package p\n\nvar x int // c\ntype T struct \x7b x int /* d */ \x7d\n" entry.1 last t behind := by
  generalize source : parse _ = parsed
  have accepted : parsed.toOption.any fun f => (f.nodes.flatMap Node.entries).length == 3 := by
    rw [← source]
    decide +kernel
  cases parsed with
  | error e => cases accepted
  | ok f =>
    refine ⟨f, rfl, eq_of_beq accepted, fun m mem entry inNode => ?_⟩
    obtain ⟨last, t, behind, ends, -⟩ := entries_linked source m mem entry inNode
    exact ⟨last, t, behind, ends⟩

/-- A comment between an entry and the end of its line, with no other token there, is not always
linked to the entry: the semicolon for the end of the line stands behind a block comment. -/
theorem entry_not_linked :
    ¬ ∀ src f, parse src = .ok f → ∀ m ∈ f.nodes, ∀ entry ∈ m.entries,
      ∀ c ∈ (Scan.ofSource src).comments, entry.1 ≤ c.span.start →
        (LineTable.ofSource src).line c.span.start = (LineTable.ofSource src).line (entry.1 - 1) →
        (∀ t ∈ (Scan.ofSource src).tokens, t.kind ≠ .mark .semi → entry.1 ≤ t.span.start →
          (LineTable.ofSource src).lastLine c.span < (LineTable.ofSource src).line t.span.start) →
        entry.2 ≠ none := by
  intro links
  generalize source : parse "package p\n\nvar x int /* c */\n" = parsed
  have entries : parsed.toOption.map (·.nodes.flatMap Node.entries) = some [(20, none)] := by
    rw [← source]
    decide +kernel
  cases parsed with
  | error e => cases entries
  | ok f =>
    have only : f.nodes.flatMap Node.entries = [(20, none)] := Option.some.inj entries
    obtain ⟨m, mem, inNode⟩ := List.mem_flatMap.mp (only ▸ List.mem_singleton.mpr rfl)
    refine links _ f source m mem (20, none) inNode ⟨.block, ⟨21, 28⟩, "/* c */"⟩ ?_ ?_ ?_ ?_ rfl
    all_goals decide +kernel

end SourceFile

end GoLayout
