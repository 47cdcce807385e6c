import GoLayout.Layout.Length

/-!
What is printed does not depend on where it goes. A map between sinks that keeps step with them maps
one run of the printer to the other, so every sink is told the pieces that the trace holds, and an
emitter their texts. The joined text of a node is that of its pieces, and the count is its length.
-/

namespace GoLayout

namespace Printer

variable {σ τ : Type} {lines : LineTable}

/-- The printer with another sink in the place of its own. -/
def map (f : σ → τ) (p : Printer σ) : Printer τ := { p with out := f p.out }

variable [Sink σ] [Sink τ]

/-! ### One run and another -/

section Map

variable {f : σ → τ} (inStep : ∀ out q, f (Sink.put out q) = Sink.put (f out) q)

include inStep

theorem map_write (p : Printer σ) (text : String) (isComment : Bool) :
    (p.map f).write text isComment = (p.write text isComment).map f := by
  unfold write map
  rw [inStep]
  rfl

theorem map_comment (p : Printer σ) (sep : Sep) (c : Comment) :
    (p.map f).comment lines sep c =
      ((p.comment lines sep c).1, (p.comment lines sep c).2.map f) := by
  have written (line : Nat) (own : Sep) : ((p.map f).place line own).write c.text true =
      ((p.place line own).write c.text true).map f := map_write inStep (p.place line own) _ _
  simp only [comment, written]
  rfl

theorem map_flush (limit : Option Nat) (cs : List Comment) (sep : Sep) (p : Printer σ) :
    flush lines limit cs sep (p.map f) =
      ((flush lines limit cs sep p).1, (flush lines limit cs sep p).2.map f) := by
  induction cs generalizing sep p with
  | nil => rfl
  | cons c cs ih =>
    simp only [flush, map_comment inStep]
    split
    · exact ih _ _
    · rfl

theorem map_toPos (pos : Nat) (sep : Sep) (p : Printer σ) :
    (p.map f).toPos lines pos sep = (p.toPos lines pos sep).map f := by
  have flushed : (p.map f).comments lines (some pos) sep = _ :=
    map_flush inStep (some pos) p.pending sep p
  rw [toPos, flushed]
  rfl

theorem map_extra (p : Printer σ) (text : String) (sep : Sep) :
    (p.map f).extra text sep = (p.extra text sep).map f :=
  map_write inStep (p.place p.lastLine sep) text false

/-- Two runs of the printer to two sinks that keep step. -/
theorem map_print (l : Layout) (p : Printer σ) :
    print lines l (p.map f) = (print lines l p).map f := by
  induction l generalizing p with
  | nil | indent | dedent => rfl
  | token span text sep =>
    have written := map_write inStep (p.toPos lines span.start sep) text false
    rw [← map_toPos inStep] at written
    simp only [print, token, written]
    rfl
  | extra text sep => exact map_extra inStep p text sep
  | gap pos sep => exact map_toPos inStep pos sep p
  | comments limit sep => exact congrArg Prod.snd (map_flush inStep limit p.pending sep p)
  | lastComma pos =>
    have lastLine : (p.map f).lastLine = p.lastLine := rfl
    simp only [print, lastLine, map_extra inStep]
    split <;> rfl
  | append a b iha ihb => rw [print, iha, ihb, print]
  | outdent body ih =>
    have inner : print lines body (p.map f).outdented = (print lines body p.outdented).map f :=
      ih p.outdented
    rw [print, inner]
    rfl

end Map

/-! ### What every run keeps -/

section Keeps

variable {P : Printer σ → Prop} (place : ∀ p line sep, P p → P (p.place line sep))
  (write : ∀ p text isComment, P p → P (p.write text isComment))
  (fields : ∀ (p : Printer σ) pending lastLine mustBreak, P p →
    P { p with pending, lastLine, mustBreak })

include place write fields

theorem flush_keeps (limit : Option Nat) (cs : List Comment) (sep : Sep) {p : Printer σ}
    (h : P p) : P (flush lines limit cs sep p).2 := by
  induction cs generalizing sep p with
  | nil => exact fields p _ _ _ h
  | cons c cs ih =>
    unfold flush
    split
    · exact ih _ (fields _ _ _ _ (write _ _ _ (place _ _ _ h)))
    · exact fields p _ _ _ h

theorem toPos_keeps (pos : Nat) (sep : Sep) {p : Printer σ} (h : P p) :
    P (p.toPos lines pos sep) :=
  place _ _ _ (flush_keeps place write fields (some pos) _ sep h)

theorem token_keeps (span : Span) (text : String) (sep : Sep) {p : Printer σ} (h : P p) :
    P (p.token lines span text sep) :=
  fields _ _ _ _ (write _ _ _ (toPos_keeps place write fields span.start sep h))

/-- What holds of a printer whatever is placed and written holds of it behind every layout, if the
indentation does not matter. -/
theorem print_keeps (moved : ∀ (p : Printer σ) indent, P p → P { p with indent }) (l : Layout)
    {p : Printer σ} (h : P p) : P (print lines l p) := by
  induction l generalizing p with
  | nil => exact h
  | token span text sep => exact token_keeps place write fields span text sep h
  | extra text sep => exact write _ _ _ (place _ _ _ h)
  | gap pos sep => exact toPos_keeps place write fields pos sep h
  | comments limit sep => exact flush_keeps place write fields limit _ sep h
  | lastComma pos =>
    unfold print
    split
    · exact write _ _ _ (place _ _ _ h)
    · exact h
  | append a b iha ihb => exact ihb (iha h)
  | indent | dedent => exact moved p _ h
  | outdent body ih => exact moved _ _ (ih (moved p _ h))

end Keeps

theorem started_print (l : Layout) {p : Printer σ} (h : p.started) : (print lines l p).started :=
  print_keeps (P := fun p => p.started) (fun _ _ _ h => h) (fun _ _ _ _ => rfl)
    (fun _ _ _ _ h => h) (fun _ _ h => h) l h

/-! ### Traces -/

/-- A printer that knows whether its trace is empty. -/
def IsTraced (p : Printer (List Piece)) : Prop := p.started = !p.out.isEmpty

theorem IsTraced.print (l : Layout) {p : Printer (List Piece)} (h : p.IsTraced) :
    (print lines l p).IsTraced :=
  print_keeps (fun _ _ _ h => h) (fun _ _ _ _ => rfl) (fun _ _ _ _ h => h) (fun _ _ h => h) l h

/-- Printing leaves what was printed before. -/
theorem out_suffix_print (l : Layout) (p : Printer (List Piece)) :
    p.out <:+ (Printer.print lines l p).out :=
  print_keeps (P := fun p' => p.out <:+ p'.out) (fun _ _ _ h => h)
    (fun _ _ _ h => h.trans (List.suffix_cons _ _)) (fun _ _ _ _ h => h) (fun _ _ h => h) l
    (List.suffix_refl _)

end Printer

namespace Layout

variable {σ τ : Type} [Sink σ] [Sink τ] (lines : LineTable) (comments : List Comment)

theorem emit_map {f : σ → τ} (inStep : ∀ out q, f (Sink.put out q) = Sink.put (f out) q)
    (out : σ) (l : Layout) : l.emit lines comments (f out) = f (l.emit lines comments out) :=
  congrArg Printer.out (Printer.map_print inStep l (.start out comments))

/-- Every sink is told the pieces of the layout. -/
theorem emit_eq_foldl (out : σ) (l : Layout) :
    l.emit lines comments out = (l.pieces lines comments).foldl Sink.put out := by
  let told (trace : List Piece) : σ := trace.foldr (fun q out => Sink.put out q) out
  have inStep : ∀ trace q, told (Sink.put trace q) = Sink.put (told trace) q := fun _ _ => rfl
  have run : l.emit lines comments out = told (l.emit lines comments []) :=
    emit_map lines comments inStep [] l
  rw [run, pieces, List.foldl_reverse]

/-- A layout is printed as its front is, with more pieces behind. -/
theorem pieces_prefix (a b : Layout) : a.pieces lines comments <+: (a ++ b).pieces lines comments :=
  List.reverse_prefix.mpr (Printer.out_suffix_print b _)

end Layout

/-! ### Texts -/

theorem Gap.flatMap_texts (g : Gap) : g.texts.flatMap String.toList = g.chars := by
  cases g with
  | none | space => rfl
  | lines count indent => simp [texts, chars, List.flatMap_replicate]

theorem Piece.flatMap_texts (q : Piece) : q.texts.flatMap String.toList = q.chars := by
  rw [texts, List.flatMap_append, Gap.flatMap_texts, List.flatMap_singleton, chars]

namespace Emitter

theorem toList_foldl (texts : List String) (s : String) :
    (texts.foldl emit s).toList = s.toList ++ texts.flatMap String.toList := by
  induction texts generalizing s with
  | nil => rw [List.foldl_nil, List.flatMap_nil, List.append_nil]
  | cons t rest ih =>
    have step : (emit s t).toList = s.toList ++ t.toList := String.toList_append
    rw [List.foldl_cons, ih, step, List.append_assoc, List.flatMap_cons]

theorem toList_foldl_put (pieces : List Piece) (s : String) :
    (pieces.foldl Sink.put s).toList = s.toList ++ Piece.join pieces := by
  induction pieces generalizing s with
  | nil => rw [List.foldl_nil, Piece.join, List.flatMap_nil, List.append_nil]
  | cons q rest ih =>
    have step : (Sink.put s q).toList = s.toList ++ q.chars := by
      rw [← q.flatMap_texts]
      exact toList_foldl q.texts s
    rw [List.foldl_cons, ih, step, List.append_assoc]
    rfl

/-- The count keeps up with the text. -/
theorem length_foldl (texts : List String) (s : String) :
    texts.foldl emit (⟨s.utf8ByteSize⟩ : ByteCounter) = ⟨(texts.foldl emit s).utf8ByteSize⟩ := by
  induction texts generalizing s with
  | nil => rfl
  | cons t rest ih =>
    have step : emit (⟨s.utf8ByteSize⟩ : ByteCounter) t = ⟨(emit s t).utf8ByteSize⟩ :=
      congrArg ByteCounter.mk String.utf8ByteSize_append.symm
    rw [List.foldl_cons, step, ih, List.foldl_cons]

end Emitter

/-- An emitter is told the texts of the pieces, one after the other. -/
theorem Layout.emit_eq_foldl_texts {ε : Type} [Emitter ε] (lines : LineTable)
    (comments : List Comment) (out : ε) (l : Layout) :
    l.emit lines comments out =
      ((l.pieces lines comments).flatMap Piece.texts).foldl Emitter.emit out := by
  rw [emit_eq_foldl, List.foldl_flatMap]
  rfl

theorem Layout.toList_emit (lines : LineTable) (comments : List Comment) (l : Layout) :
    (l.emit lines comments "").toList = Piece.join (l.pieces lines comments) := by
  rw [emit_eq_foldl, Emitter.toList_foldl_put]
  rfl

theorem Node.toList_text (lines : LineTable) (n : Node) :
    (n.text lines).toList = Piece.join (n.pieces lines) :=
  Layout.toList_emit lines [] (n.layout lines)

namespace SourceFile

variable (f : SourceFile)

theorem started_print {σ : Type} [Sink σ] (out : σ) :
    (Printer.print f.lines f.layout (.start out f.allComments)).started := by
  -- The keyword is printed first.
  let keyword : Layout := .token f.packagePos "package" .glue
  let name : Layout := Layout.ident f.name .space
  have begun : (Printer.print f.lines (keyword ++ name) (.start out f.allComments)).started := rfl
  have declared : (Printer.print f.lines (keyword ++ name ++ Decl.layouts f.lines none f.decls)
      (.start out f.allComments)).started :=
    Printer.started_print (Decl.layouts f.lines none f.decls) begun
  exact Printer.started_print (.comments none .line) declared

theorem pieces_ne_nil : f.pieces ≠ [] := by
  intro none
  let p : Printer (List Piece) := Printer.print f.lines f.layout (.start [] f.allComments)
  have traced : p.IsTraced := Printer.IsTraced.print f.layout rfl
  have started : p.started := f.started_print []
  have nothing : p.out = [] := List.reverse_eq_nil_iff.mp none
  rw [Printer.IsTraced, nothing, started] at traced
  exact Bool.noConfusion traced

/-- A printed file is the text of its pieces and a newline. -/
theorem toList_print : f.print.toList = Piece.join f.pieces ++ ['\n'] := by
  have ended : f.print = f.layout.emit f.lines f.allComments "" ++ "\n" :=
    if_pos (f.started_print "")
  rw [ended, String.toList_append, Layout.toList_emit]
  rfl

end SourceFile

end GoLayout
