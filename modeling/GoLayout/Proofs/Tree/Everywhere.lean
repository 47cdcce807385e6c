import GoLayout.Proofs.LineTable
import GoLayout.Tree.Copy
import GoLayout.Tree.Extent

/-!
Statements about every token of a tree. `Everywhere P` says that the span of each token, those of
names and literals included, satisfies `P`. Where all tokens lie within the first `n` bytes of a
source, so does the extent of every node, and a copy has its tokens wherever it was told to place
them.
-/

namespace GoLayout

variable (P : Span → Prop)

def Qualifier.Everywhere (q : Qualifier) : Prop := P q.package.span ∧ P q.dot

def Brackets.Everywhere (b : Brackets) : Prop := P b.left ∧ P b.right

def ChanDir.Everywhere : ChanDir → Prop
  | .both => True
  | .send arrow => P arrow
  | .recv arrow => P arrow

def ImportName.Everywhere : ImportName → Prop
  | .dot span => P span
  | .name id => P id.span

def ImportSpec.Everywhere (s : ImportSpec) : Prop :=
  (∀ name ∈ s.name, name.Everywhere P) ∧ P s.path.span

mutual

def Expr.Everywhere : Expr → Prop
  | .ident name => P name.span
  | .literal lit => P lit.span
  | .func funcPos sig body => P funcPos ∧ sig.Everywhere ∧ body.Everywhere
  | .composite type lbrace elements rbrace =>
    TypeExpr.EverywhereOpt type ∧ P lbrace ∧ Expr.EverywhereAll elements ∧ P rbrace
  | .paren lparen inner rparen => P lparen ∧ inner.Everywhere ∧ P rparen
  | .selector operand dot member => operand.Everywhere ∧ P dot ∧ P member.span
  | .index operand lbrack indices rbrack =>
    operand.Everywhere ∧ P lbrack ∧ Expr.EverywhereAll indices ∧ P rbrack
  | .slice operand lbrack lo hi max _ rbrack =>
    operand.Everywhere ∧ P lbrack ∧ Expr.EverywhereOpt lo ∧ Expr.EverywhereOpt hi ∧
      Expr.EverywhereOpt max ∧ P rbrack
  | .assertion operand dot lparen type rparen =>
    operand.Everywhere ∧ P dot ∧ P lparen ∧ TypeExpr.EverywhereOpt type ∧ P rparen
  | .call fn lparen args spread rparen =>
    fn.Everywhere ∧ P lparen ∧ Expr.EverywhereAll args ∧ (∀ s ∈ spread, P s) ∧ P rparen
  | .unary _ opPos operand => P opPos ∧ operand.Everywhere
  | .binary left _ opPos right => left.Everywhere ∧ P opPos ∧ right.Everywhere
  | .keyValue key colon value => key.Everywhere ∧ P colon ∧ value.Everywhere
  | .type t => t.Everywhere

def Expr.EverywhereOpt : Option Expr → Prop
  | none => True
  | some e => e.Everywhere

def Expr.EverywhereAll : List Expr → Prop
  | [] => True
  | e :: es => e.Everywhere ∧ Expr.EverywhereAll es

def TypeExpr.Everywhere : TypeExpr → Prop
  | .named qualifier name => (∀ q ∈ qualifier, q.Everywhere P) ∧ P name.span
  | .generic qualifier name lbrack args rbrack =>
    (∀ q ∈ qualifier, q.Everywhere P) ∧ P name.span ∧ P lbrack ∧ TypeExpr.EverywhereAll args ∧
      P rbrack
  | .pointer star elem => P star ∧ elem.Everywhere
  | .array lbrack len rbrack elem =>
    P lbrack ∧ len.Everywhere ∧ P rbrack ∧ elem.Everywhere
  | .countedArray lbrack dots rbrack elem => P lbrack ∧ P dots ∧ P rbrack ∧ elem.Everywhere
  | .slice lbrack rbrack elem => P lbrack ∧ P rbrack ∧ elem.Everywhere
  | .map mapPos lbrack key rbrack value =>
    P mapPos ∧ P lbrack ∧ key.Everywhere ∧ P rbrack ∧ value.Everywhere
  | .chan dir chanPos elem => dir.Everywhere P ∧ P chanPos ∧ elem.Everywhere
  | .struct structPos fields => P structPos ∧ fields.Everywhere
  | .interface interfacePos elements => P interfacePos ∧ elements.Everywhere
  | .func funcPos sig => (∀ s ∈ funcPos, P s) ∧ sig.Everywhere
  | .paren lparen inner rparen => P lparen ∧ inner.Everywhere ∧ P rparen
  | .variadic dots elem => P dots ∧ elem.Everywhere
  | .union terms => TypeExpr.EverywhereAll terms
  | .tilde tildePos inner => P tildePos ∧ inner.Everywhere

def TypeExpr.EverywhereOpt : Option TypeExpr → Prop
  | none => True
  | some t => t.Everywhere

def TypeExpr.EverywhereAll : List TypeExpr → Prop
  | [] => True
  | t :: ts => t.Everywhere ∧ TypeExpr.EverywhereAll ts

def Field.Everywhere : Field → Prop
  | ⟨_, names, type, tag, _⟩ =>
    (∀ name ∈ names, P name.span) ∧ type.Everywhere ∧ ∀ l ∈ tag, P l.span

def Field.EverywhereAll : List Field → Prop
  | [] => True
  | f :: fs => f.Everywhere ∧ Field.EverywhereAll fs

def FieldList.Everywhere : FieldList → Prop
  | ⟨brackets, fields⟩ => (∀ b ∈ brackets, b.Everywhere P) ∧ Field.EverywhereAll fields

def FieldList.EverywhereOpt : Option FieldList → Prop
  | none => True
  | some fields => fields.Everywhere

def Signature.Everywhere : Signature → Prop
  | ⟨params, results⟩ => params.Everywhere ∧ FieldList.EverywhereOpt results

def Block.Everywhere : Block → Prop
  | ⟨lbrace, stmts, rbrace⟩ => P lbrace ∧ Stmt.EverywhereAll stmts ∧ P rbrace

def Stmt.Everywhere : Stmt → Prop
  | .decl d => d.Everywhere
  | .empty span => P span
  | .labeled label colon stmt => P label.span ∧ P colon ∧ stmt.Everywhere
  | .expr e => e.Everywhere
  | .send chan arrow value => chan.Everywhere ∧ P arrow ∧ value.Everywhere
  | .incDec operand _ opPos => operand.Everywhere ∧ P opPos
  | .assign lhs _ opPos rhs => Expr.EverywhereAll lhs ∧ P opPos ∧ Expr.EverywhereAll rhs
  | .go goPos call => P goPos ∧ call.Everywhere
  | .defer deferPos call => P deferPos ∧ call.Everywhere
  | .returns returnPos results => P returnPos ∧ Expr.EverywhereAll results
  | .branch _ kwPos label => P kwPos ∧ ∀ l ∈ label, P l.span
  | .block b => b.Everywhere
  | .ifElse ifPos init cond body orElse =>
    P ifPos ∧ Stmt.EverywhereOpt init ∧ cond.Everywhere ∧ body.Everywhere ∧
      Stmt.EverywhereOpt orElse
  | .caseClause casePos values colon body =>
    P casePos ∧ Expr.EverywhereAll values ∧ P colon ∧ Stmt.EverywhereAll body
  | .switch switchPos init tag body =>
    P switchPos ∧ Stmt.EverywhereOpt init ∧ Expr.EverywhereOpt tag ∧ body.Everywhere
  | .typeSwitch switchPos init guarded body =>
    P switchPos ∧ Stmt.EverywhereOpt init ∧ guarded.Everywhere ∧ body.Everywhere
  | .commClause casePos comm colon body =>
    P casePos ∧ Stmt.EverywhereOpt comm ∧ P colon ∧ Stmt.EverywhereAll body
  | .select selectPos body => P selectPos ∧ body.Everywhere
  | .forLoop forPos init cond post body =>
    P forPos ∧ Stmt.EverywhereOpt init ∧ Expr.EverywhereOpt cond ∧ Stmt.EverywhereOpt post ∧
      body.Everywhere
  | .range forPos key value op rangePos operand body =>
    P forPos ∧ Expr.EverywhereOpt key ∧ Expr.EverywhereOpt value ∧ (∀ o ∈ op, P o.2) ∧
      P rangePos ∧ operand.Everywhere ∧ body.Everywhere

def Stmt.EverywhereOpt : Option Stmt → Prop
  | none => True
  | some s => s.Everywhere

def Stmt.EverywhereAll : List Stmt → Prop
  | [] => True
  | s :: ss => s.Everywhere ∧ Stmt.EverywhereAll ss

def GenDecl.Everywhere : GenDecl → Prop
  | ⟨_, kwPos, _, lparen, specs, rparen⟩ =>
    P kwPos ∧ (∀ s ∈ lparen, P s) ∧ Spec.EverywhereAll specs ∧ ∀ s ∈ rparen, P s

def Spec.Everywhere : Spec → Prop
  | .importSpec spec => spec.Everywhere P
  | .valueSpec _ names type assign values _ =>
    (∀ name ∈ names, P name.span) ∧ TypeExpr.EverywhereOpt type ∧ (∀ s ∈ assign, P s) ∧
      Expr.EverywhereAll values
  | .typeSpec _ name typeParams assign type _ =>
    P name.span ∧ FieldList.EverywhereOpt typeParams ∧ (∀ s ∈ assign, P s) ∧ type.Everywhere

def Spec.EverywhereAll : List Spec → Prop
  | [] => True
  | s :: ss => s.Everywhere ∧ Spec.EverywhereAll ss

end

def FuncDecl.Everywhere (f : FuncDecl) : Prop :=
  P f.funcPos ∧ FieldList.EverywhereOpt P f.receiver ∧ P f.name.span ∧
    FieldList.EverywhereOpt P f.typeParams ∧ f.sig.Everywhere P ∧ ∀ b ∈ f.body, b.Everywhere P

def Decl.Everywhere : Decl → Prop
  | .gen d => d.Everywhere P
  | .func f => f.Everywhere P

/-! ### Lists and options -/

variable {P}

theorem Expr.everywhereAll_iff {es : List Expr} :
    Expr.EverywhereAll P es ↔ ∀ e ∈ es, e.Everywhere P := by
  induction es with
  | nil => simp [EverywhereAll]
  | cons e es ih => simp [EverywhereAll, ih]

theorem TypeExpr.everywhereAll_iff {ts : List TypeExpr} :
    TypeExpr.EverywhereAll P ts ↔ ∀ t ∈ ts, t.Everywhere P := by
  induction ts with
  | nil => simp [EverywhereAll]
  | cons t ts ih => simp [EverywhereAll, ih]

theorem Field.everywhereAll_iff {fs : List Field} :
    Field.EverywhereAll P fs ↔ ∀ f ∈ fs, f.Everywhere P := by
  induction fs with
  | nil => simp [EverywhereAll]
  | cons f fs ih => simp [EverywhereAll, ih]

theorem Stmt.everywhereAll_iff {ss : List Stmt} :
    Stmt.EverywhereAll P ss ↔ ∀ s ∈ ss, s.Everywhere P := by
  induction ss with
  | nil => simp [EverywhereAll]
  | cons s ss ih => simp [EverywhereAll, ih]

theorem Spec.everywhereAll_iff {ss : List Spec} :
    Spec.EverywhereAll P ss ↔ ∀ s ∈ ss, s.Everywhere P := by
  induction ss with
  | nil => simp [EverywhereAll]
  | cons s ss ih => simp [EverywhereAll, ih]

theorem Expr.everywhereOpt_iff {o : Option Expr} :
    Expr.EverywhereOpt P o ↔ ∀ e ∈ o, e.Everywhere P := by
  cases o <;> simp [EverywhereOpt]

/-! ### Extents

A node begins with one of its tokens and ends with one. -/

section Extent

variable {n : Nat}

theorem TypeExpr.name_start_lt {qualifier : Option Qualifier} {name : Ident}
    (h : ∀ q ∈ qualifier, q.Everywhere (Span.Within n)) (h' : name.span.Within n) :
    (qualifier.elim name (·.package)).span.start < n := by
  cases qualifier with
  | none => exact h'.1
  | some q => exact (h q rfl).1.1

mutual

theorem Expr.pos_lt (pos : 0 < n) : ∀ e : Expr, e.Everywhere (Span.Within n) → e.pos < n
  | .ident _, h => h.1
  | .literal _, h => h.1
  | .func _ _ _, h => h.1.1
  | .composite (some t) _ _ _, h => t.pos_lt pos h.1
  | .composite none _ _ _, h => h.2.1.1
  | .paren _ _ _, h => h.1.1
  | .selector e _ _, h => e.pos_lt pos h.1
  | .index e _ _ _, h => e.pos_lt pos h.1
  | .slice e _ _ _ _ _ _, h => e.pos_lt pos h.1
  | .assertion e _ _ _ _, h => e.pos_lt pos h.1
  | .call e _ _ _ _, h => e.pos_lt pos h.1
  | .unary _ _ _, h => h.1.1
  | .binary e _ _ _, h => e.pos_lt pos h.1
  | .keyValue e _ _, h => e.pos_lt pos h.1
  | .type t, h => t.pos_lt pos h

theorem TypeExpr.pos_lt (pos : 0 < n) : ∀ t : TypeExpr, t.Everywhere (Span.Within n) → t.pos < n
  | .named _ _, h => TypeExpr.name_start_lt h.1 h.2
  | .generic _ _ _ _ _, h => TypeExpr.name_start_lt h.1 h.2.1
  | .pointer _ _, h => h.1.1
  | .array _ _ _ _, h => h.1.1
  | .countedArray _ _ _ _, h => h.1.1
  | .slice _ _ _, h => h.1.1
  | .map _ _ _ _ _, h => h.1.1
  | .chan (.recv _) _ _, h => h.1.1
  | .chan (.send _) _ _, h => h.2.1.1
  | .chan .both _ _, h => h.2.1.1
  | .struct _ _, h => h.1.1
  | .interface _ _, h => h.1.1
  | .func (some s) _, h => (h.1 s rfl).1
  | .func none sig, h => sig.pos_lt pos h.2
  | .paren _ _ _, h => h.1.1
  | .variadic _ _, h => h.1.1
  | .union terms, h => TypeExpr.firstPos_lt pos terms h
  | .tilde _ _, h => h.1.1

theorem TypeExpr.firstPos_lt (pos : 0 < n) :
    ∀ ts : List TypeExpr, TypeExpr.EverywhereAll (Span.Within n) ts → TypeExpr.firstPos ts < n
  | [], _ => pos
  | t :: _, h => t.pos_lt pos h.1

theorem Signature.pos_lt (pos : 0 < n) :
    ∀ s : Signature, s.Everywhere (Span.Within n) → s.pos < n
  | ⟨params, _⟩, h => params.pos_lt pos h.1

theorem FieldList.pos_lt (pos : 0 < n) :
    ∀ l : FieldList, l.Everywhere (Span.Within n) → l.pos < n
  | ⟨some b, _⟩, h => (h.1 b rfl).1.1
  | ⟨none, fields⟩, h => Field.firstPos_lt pos fields h.2

theorem Field.pos_lt (pos : 0 < n) : ∀ f : Field, f.Everywhere (Span.Within n) → f.pos < n
  | ⟨_, name :: _, _, _, _⟩, h => (h.1 name List.mem_cons_self).1
  | ⟨_, [], t, _, _⟩, h => t.pos_lt pos h.2.1

theorem Field.firstPos_lt (pos : 0 < n) :
    ∀ fs : List Field, Field.EverywhereAll (Span.Within n) fs → Field.firstPos fs < n
  | [], _ => pos
  | f :: _, h => f.pos_lt pos h.1

end

mutual

theorem Expr.stop_le : ∀ e : Expr, e.Everywhere (Span.Within n) → e.stop ≤ n
  | .ident _, h => h.2
  | .literal _, h => h.2
  | .func _ _ ⟨_, _, _⟩, h => h.2.2.2.2.2
  | .composite _ _ _ _, h => h.2.2.2.2
  | .paren _ _ _, h => h.2.2.2
  | .selector _ _ _, h => h.2.2.2
  | .index _ _ _ _, h => h.2.2.2.2
  | .slice _ _ _ _ _ _ _, h => h.2.2.2.2.2.2
  | .assertion _ _ _ _ _, h => h.2.2.2.2.2
  | .call _ _ _ _ _, h => h.2.2.2.2.2
  | .unary _ _ e, h => e.stop_le h.2
  | .binary _ _ _ e, h => e.stop_le h.2.2
  | .keyValue _ _ e, h => e.stop_le h.2.2
  | .type t, h => t.stop_le h

theorem TypeExpr.stop_le : ∀ t : TypeExpr, t.Everywhere (Span.Within n) → t.stop ≤ n
  | .named _ _, h => h.2.2
  | .generic _ _ _ _ _, h => h.2.2.2.2.2
  | .pointer _ t, h => t.stop_le h.2
  | .array _ _ _ t, h => t.stop_le h.2.2.2
  | .countedArray _ _ _ t, h => t.stop_le h.2.2.2
  | .slice _ _ t, h => t.stop_le h.2.2
  | .map _ _ _ _ t, h => t.stop_le h.2.2.2.2
  | .chan _ _ t, h => t.stop_le h.2.2
  | .struct _ fields, h => by
    rw [TypeExpr.stop]
    cases stops : fields.stop? with
    | none => exact h.1.2
    | some k => exact fields.stop?_le h.2 k stops
  | .interface _ elements, h => by
    rw [TypeExpr.stop]
    cases stops : elements.stop? with
    | none => exact h.1.2
    | some k => exact elements.stop?_le h.2 k stops
  | .func _ sig, h => sig.stop_le h.2
  | .paren _ _ _, h => h.2.2.2
  | .variadic _ t, h => t.stop_le h.2
  | .union terms, h => TypeExpr.lastStop_le terms h
  | .tilde _ t, h => t.stop_le h.2

theorem TypeExpr.lastStop_le :
    ∀ ts : List TypeExpr, TypeExpr.EverywhereAll (Span.Within n) ts → TypeExpr.lastStop ts ≤ n
  | [], _ => Nat.zero_le n
  | [t], h => t.stop_le h.1
  | _ :: t :: ts, h => TypeExpr.lastStop_le (t :: ts) h.2

theorem Signature.stop_le : ∀ s : Signature, s.Everywhere (Span.Within n) → s.stop ≤ n
  | ⟨params, none⟩, h => by
    rw [Signature.stop]
    cases stops : params.stop? with
    | none => exact Nat.zero_le n
    | some k => exact params.stop?_le h.1 k stops
  | ⟨params, some results⟩, h => by
    rw [Signature.stop]
    cases stops : results.stop? with
    | some k => exact results.stop?_le h.2 k stops
    | none =>
      cases stops' : params.stop? with
      | none => exact Nat.zero_le n
      | some k => exact params.stop?_le h.1 k stops'

theorem FieldList.stop?_le :
    ∀ l : FieldList, l.Everywhere (Span.Within n) → ∀ k, l.stop? = some k → k ≤ n
  | ⟨some b, _⟩, h, k, stops => by
    obtain rfl : b.right.stop = k := Option.some.inj stops
    exact (h.1 b rfl).2.2
  | ⟨none, fields⟩, h, k, stops => Field.lastStop?_le fields h.2 k stops

theorem Field.stop_le : ∀ f : Field, f.Everywhere (Span.Within n) → f.stop ≤ n
  | ⟨_, _, _, some tag, _⟩, h => (h.2.2 tag rfl).2
  | ⟨_, _, t, none, _⟩, h => t.stop_le h.2.1

theorem Field.lastStop?_le :
    ∀ fs : List Field, Field.EverywhereAll (Span.Within n) fs → ∀ k, Field.lastStop? fs = some k →
      k ≤ n
  | [], _, _, stops => nomatch stops
  | [f], h, k, stops => by
    obtain rfl : f.stop = k := Option.some.inj stops
    exact f.stop_le h.1
  | _ :: f :: fs, h, k, stops => Field.lastStop?_le (f :: fs) h.2 k stops

end

theorem Spec.pos_lt (pos : 0 < n) : ∀ s : Spec, s.Everywhere (Span.Within n) → s.pos < n
  | .importSpec ⟨_, some (.dot span), _, _⟩, h => (h.1 (.dot span) rfl).1
  | .importSpec ⟨_, some (.name id), _, _⟩, h => (h.1 (.name id) rfl).1
  | .importSpec ⟨_, none, _, _⟩, h => h.2.1
  | .valueSpec _ [] _ _ _ _, _ => pos
  | .valueSpec _ (name :: _) _ _ _ _, h => (h.1 name List.mem_cons_self).1
  | .typeSpec _ _ _ _ _ _, h => h.1.1

theorem Spec.stop_le : ∀ s : Spec, s.Everywhere (Span.Within n) → s.stop ≤ n
  | .importSpec _, h => h.2.2
  | .typeSpec _ _ _ _ type _, h => type.stop_le h.2.2.2
  | .valueSpec _ names type _ values _, h => by
    unfold Spec.stop
    dsimp only
    split
    · rename_i value last
      exact value.stop_le (Expr.everywhereAll_iff.mp h.2.2.2 value (List.mem_of_getLast? last))
    · exact TypeExpr.stop_le _ h.2.1
    · cases last : names.getLast? with
      | none => exact Nat.zero_le n
      | some name => exact (h.1 name (List.mem_of_getLast? last)).2

theorem GenDecl.stop_le {d : GenDecl} (kw : d.kwPos.Within n)
    (specs : Spec.EverywhereAll (Span.Within n) d.specs) (rparen : ∀ s ∈ d.rparen, s.stop ≤ n) :
    d.stop ≤ n := by
  unfold GenDecl.stop
  split
  · rename_i s present
    exact rparen s present
  · cases last : d.specs.getLast? with
    | none => exact kw.2
    | some s => exact s.stop_le (Spec.everywhereAll_iff.mp specs s (List.mem_of_getLast? last))

theorem FuncDecl.stop_le {f : FuncDecl} (h : f.Everywhere (Span.Within n)) : f.stop ≤ n := by
  obtain ⟨-, -, -, -, sig, body⟩ := h
  unfold FuncDecl.stop
  split
  · rename_i b present
    obtain ⟨_, _, _⟩ := b
    exact (body _ present).2.2.2
  · exact f.sig.stop_le sig

end Extent

/-! ### Copies -/

section Copy

-- The recursive theorems below share their hypotheses, though not each of them uses both.
set_option linter.unusedSectionVars false

variable {c : Copying} (place : ∀ s, P (c.place s))

include place

theorem Copying.everywhere_chanDir (dir : ChanDir) : (c.chanDir dir).Everywhere P := by
  cases dir <;> simp [chanDir, ChanDir.Everywhere, place]

theorem Copying.everywhere_importSpec (s : ImportSpec) : (c.importSpec s).Everywhere P := by
  obtain ⟨_, name, _, _⟩ := s
  refine ⟨?_, place _⟩
  rcases name with - | - | -
  all_goals simp [importSpec, importName, ident, ImportName.Everywhere, place]

theorem Copying.everywhere_qualifier (q : Option Qualifier) :
    ∀ q' ∈ q.map c.qualifier, q'.Everywhere P := by
  cases q <;> simp [qualifier, ident, Qualifier.Everywhere, place]

theorem Copying.everywhere_brackets (b : Option Brackets) :
    ∀ b' ∈ b.map c.brackets, b'.Everywhere P := by
  cases b <;> simp [brackets, Brackets.Everywhere, place]

theorem Copying.everywhere_span (s : Option Span) : ∀ s' ∈ s.map c.place, P s' := by
  cases s <;> simp [place]

theorem Copying.everywhere_names (names : List Ident) : ∀ i ∈ names.map c.ident, P i.span := by
  simp [ident, place]

variable (fill : ∀ i e, c.fill i = some e → e.Everywhere P)

include fill

mutual

theorem Expr.everywhere_copy : ∀ e : Expr, (e.copy c).Everywhere P
  | .ident name => by
    rw [Expr.copy]
    cases filled : c.fill name with
    | none => exact place _
    | some e => exact fill name e filled
  | .literal _ => place _
  | .func _ sig body => ⟨place _, sig.everywhere_copy, body.everywhere_copy⟩
  | .composite type _ elements _ =>
    ⟨TypeExpr.everywhere_copyOpt type, place _, Expr.everywhere_copyAll elements, place _⟩
  | .paren _ inner _ => ⟨place _, inner.everywhere_copy, place _⟩
  | .selector operand _ _ => ⟨operand.everywhere_copy, place _, place _⟩
  | .index operand _ indices _ =>
    ⟨operand.everywhere_copy, place _, Expr.everywhere_copyAll indices, place _⟩
  | .slice operand _ lo hi max _ _ =>
    ⟨operand.everywhere_copy, place _, Expr.everywhere_copyOpt lo, Expr.everywhere_copyOpt hi,
      Expr.everywhere_copyOpt max, place _⟩
  | .assertion operand _ _ type _ =>
    ⟨operand.everywhere_copy, place _, place _, TypeExpr.everywhere_copyOpt type, place _⟩
  | .call fn _ args spread _ =>
    ⟨fn.everywhere_copy, place _, Expr.everywhere_copyAll args,
      Copying.everywhere_span place spread, place _⟩
  | .unary _ _ operand => ⟨place _, operand.everywhere_copy⟩
  | .binary left _ _ right => ⟨left.everywhere_copy, place _, right.everywhere_copy⟩
  | .keyValue key _ value => ⟨key.everywhere_copy, place _, value.everywhere_copy⟩
  | .type t => t.everywhere_copy

theorem Expr.everywhere_copyOpt : ∀ o : Option Expr, Expr.EverywhereOpt P (Expr.copyOpt c o)
  | none => trivial
  | some e => e.everywhere_copy

theorem Expr.everywhere_copyAll : ∀ es : List Expr, Expr.EverywhereAll P (Expr.copyAll c es)
  | [] => trivial
  | e :: es => ⟨e.everywhere_copy, Expr.everywhere_copyAll es⟩

theorem TypeExpr.everywhere_copy : ∀ t : TypeExpr, (t.copy c).Everywhere P
  | .named q _ => ⟨Copying.everywhere_qualifier place q, place _⟩
  | .generic q _ _ args _ =>
    ⟨Copying.everywhere_qualifier place q, place _, place _, TypeExpr.everywhere_copyAll args,
      place _⟩
  | .pointer _ elem => ⟨place _, elem.everywhere_copy⟩
  | .array _ len _ elem => ⟨place _, len.everywhere_copy, place _, elem.everywhere_copy⟩
  | .countedArray _ _ _ elem => ⟨place _, place _, place _, elem.everywhere_copy⟩
  | .slice _ _ elem => ⟨place _, place _, elem.everywhere_copy⟩
  | .map _ _ key _ value =>
    ⟨place _, place _, key.everywhere_copy, place _, value.everywhere_copy⟩
  | .chan dir _ elem => ⟨Copying.everywhere_chanDir place dir, place _, elem.everywhere_copy⟩
  | .struct _ fields => ⟨place _, fields.everywhere_copy⟩
  | .interface _ elements => ⟨place _, elements.everywhere_copy⟩
  | .func funcPos sig => ⟨Copying.everywhere_span place funcPos, sig.everywhere_copy⟩
  | .paren _ inner _ => ⟨place _, inner.everywhere_copy, place _⟩
  | .variadic _ elem => ⟨place _, elem.everywhere_copy⟩
  | .union terms => TypeExpr.everywhere_copyAll terms
  | .tilde _ inner => ⟨place _, inner.everywhere_copy⟩

theorem TypeExpr.everywhere_copyOpt :
    ∀ o : Option TypeExpr, TypeExpr.EverywhereOpt P (TypeExpr.copyOpt c o)
  | none => trivial
  | some t => t.everywhere_copy

theorem TypeExpr.everywhere_copyAll :
    ∀ ts : List TypeExpr, TypeExpr.EverywhereAll P (TypeExpr.copyAll c ts)
  | [] => trivial
  | t :: ts => ⟨t.everywhere_copy, TypeExpr.everywhere_copyAll ts⟩

theorem Field.everywhere_copy : ∀ f : Field, (f.copy c).Everywhere P
  | ⟨_, names, type, tag, _⟩ => by
    refine ⟨Copying.everywhere_names place names, type.everywhere_copy, ?_⟩
    cases tag <;> simp [Copying.literal, place]

theorem Field.everywhere_copyAll : ∀ fs : List Field, Field.EverywhereAll P (Field.copyAll c fs)
  | [] => trivial
  | f :: fs => ⟨f.everywhere_copy, Field.everywhere_copyAll fs⟩

theorem FieldList.everywhere_copy : ∀ l : FieldList, (l.copy c).Everywhere P
  | ⟨b, fields⟩ => ⟨Copying.everywhere_brackets place b, Field.everywhere_copyAll fields⟩

theorem FieldList.everywhere_copyOpt :
    ∀ o : Option FieldList, FieldList.EverywhereOpt P (FieldList.copyOpt c o)
  | none => trivial
  | some l => l.everywhere_copy

theorem Signature.everywhere_copy : ∀ s : Signature, (s.copy c).Everywhere P
  | ⟨params, results⟩ => ⟨params.everywhere_copy, FieldList.everywhere_copyOpt results⟩

theorem Block.everywhere_copy : ∀ b : Block, (b.copy c).Everywhere P
  | ⟨_, stmts, _⟩ => ⟨place _, Stmt.everywhere_copyAll stmts, place _⟩

theorem Stmt.everywhere_copy : ∀ s : Stmt, (s.copy c).Everywhere P
  | .decl d => d.everywhere_copy
  | .empty _ => place _
  | .labeled _ _ stmt => ⟨place _, place _, stmt.everywhere_copy⟩
  | .expr e => e.everywhere_copy
  | .send chan _ value => ⟨chan.everywhere_copy, place _, value.everywhere_copy⟩
  | .incDec operand _ _ => ⟨operand.everywhere_copy, place _⟩
  | .assign lhs _ _ rhs => ⟨Expr.everywhere_copyAll lhs, place _, Expr.everywhere_copyAll rhs⟩
  | .go _ call => ⟨place _, call.everywhere_copy⟩
  | .defer _ call => ⟨place _, call.everywhere_copy⟩
  | .returns _ results => ⟨place _, Expr.everywhere_copyAll results⟩
  | .branch _ _ label => by
    refine ⟨place _, ?_⟩
    cases label <;> simp [Copying.ident, place]
  | .block b => b.everywhere_copy
  | .ifElse _ init cond body orElse =>
    ⟨place _, Stmt.everywhere_copyOpt init, cond.everywhere_copy, body.everywhere_copy,
      Stmt.everywhere_copyOpt orElse⟩
  | .caseClause _ values _ body =>
    ⟨place _, Expr.everywhere_copyAll values, place _, Stmt.everywhere_copyAll body⟩
  | .switch _ init tag body =>
    ⟨place _, Stmt.everywhere_copyOpt init, Expr.everywhere_copyOpt tag, body.everywhere_copy⟩
  | .typeSwitch _ init guarded body =>
    ⟨place _, Stmt.everywhere_copyOpt init, guarded.everywhere_copy, body.everywhere_copy⟩
  | .commClause _ comm _ body =>
    ⟨place _, Stmt.everywhere_copyOpt comm, place _, Stmt.everywhere_copyAll body⟩
  | .select _ body => ⟨place _, body.everywhere_copy⟩
  | .forLoop _ init cond post body =>
    ⟨place _, Stmt.everywhere_copyOpt init, Expr.everywhere_copyOpt cond,
      Stmt.everywhere_copyOpt post, body.everywhere_copy⟩
  | .range _ key value op _ operand body => by
    refine ⟨place _, Expr.everywhere_copyOpt key, Expr.everywhere_copyOpt value, ?_, place _,
      operand.everywhere_copy, body.everywhere_copy⟩
    cases op <;> simp [place]

theorem Stmt.everywhere_copyOpt : ∀ o : Option Stmt, Stmt.EverywhereOpt P (Stmt.copyOpt c o)
  | none => trivial
  | some s => s.everywhere_copy

theorem Stmt.everywhere_copyAll : ∀ ss : List Stmt, Stmt.EverywhereAll P (Stmt.copyAll c ss)
  | [] => trivial
  | s :: ss => ⟨s.everywhere_copy, Stmt.everywhere_copyAll ss⟩

theorem GenDecl.everywhere_copy : ∀ d : GenDecl, (d.copy c).Everywhere P
  | ⟨_, _, _, lparen, specs, rparen⟩ =>
    ⟨place _, Copying.everywhere_span place lparen, Spec.everywhere_copyAll specs,
      Copying.everywhere_span place rparen⟩

theorem Spec.everywhere_copy : ∀ s : Spec, (s.copy c).Everywhere P
  | .importSpec spec => Copying.everywhere_importSpec place spec
  | .valueSpec _ names type assign values _ =>
    ⟨Copying.everywhere_names place names, TypeExpr.everywhere_copyOpt type,
      Copying.everywhere_span place assign, Expr.everywhere_copyAll values⟩
  | .typeSpec _ _ typeParams assign type _ =>
    ⟨place _, FieldList.everywhere_copyOpt typeParams, Copying.everywhere_span place assign,
      type.everywhere_copy⟩

theorem Spec.everywhere_copyAll : ∀ ss : List Spec, Spec.EverywhereAll P (Spec.copyAll c ss)
  | [] => trivial
  | s :: ss => ⟨s.everywhere_copy, Spec.everywhere_copyAll ss⟩

end

end Copy

/-- A spec moved to one place has every token there. -/
theorem Spec.everywhere_restamp {pos : Nat} (s : Spec) (h : P (.point pos)) :
    (s.restamp pos).Everywhere P :=
  Spec.everywhere_copy (fun _ => h) (fun _ _ filled => by simp [Copying.stamp] at filled) s

end GoLayout
