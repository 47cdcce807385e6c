import GoLayout.Tree.Extent

/-!
The landmarks of a tree: its tokens in the order in which a source has them, the places of empty
statements, which have no token, and where local declarations begin. A tree is in order between two
offsets if its landmarks follow one another there; then it begins with its first landmark and ends
with its last one, so extents nest as nodes do.
-/

namespace GoLayout

inductive Landmark where
  | token (span : Span)
  | place (span : Span)
  /-- The place where a declaration begins that is a statement. -/
  | entry (decl : GenDecl)
  /-- Stands for what is missing in a node that no source has, such as a union of no terms. -/
  | missing

namespace Landmark

def start : Landmark → Nat
  | token span | place span => span.start
  | entry d => d.kwPos.start
  | missing => 0

def stop : Landmark → Nat
  | token span | place span => span.stop
  | entry d => d.kwPos.start
  | missing => 0

/-- A landmark that a source may have. -/
def Real : Landmark → Prop
  | token s => s.start < s.stop
  | place s => s.start ≤ s.stop
  | entry _ => True
  | missing => False

theorem Real.le {l : Landmark} (h : l.Real) : l.start ≤ l.stop := by
  cases l with
  | token s => exact Nat.le_of_lt h
  | place s => exact h
  | entry d => exact Nat.le_refl _
  | missing => exact h.elim

/-- The landmarks follow one another between `lo` and `hi`, each as `ok` says. -/
def InOrder (ok : Landmark → Prop) (hi : Nat) : (lo : Nat) → List Landmark → Prop
  | lo, [] => lo ≤ hi
  | lo, l :: ls => l.Real ∧ ok l ∧ lo ≤ l.start ∧ InOrder ok hi l.stop ls

variable {ok : Landmark → Prop} {lo lo' mid hi hi' : Nat} {l : Landmark} {ls ls' : List Landmark}

theorem InOrder.le (h : InOrder ok hi lo ls) : lo ≤ hi := by
  induction ls generalizing lo with
  | nil => exact h
  | cons l ls ih =>
    obtain ⟨real, -, before, behind⟩ := h
    exact Nat.le_trans before (Nat.le_trans real.le (ih behind))

theorem InOrder.widen (h : InOrder ok hi lo ls) (low : lo' ≤ lo) (high : hi ≤ hi') :
    InOrder ok hi' lo' ls := by
  induction ls generalizing lo lo' with
  | nil => exact Nat.le_trans low (Nat.le_trans h high)
  | cons l ls ih =>
    obtain ⟨real, holds, before, behind⟩ := h
    exact ⟨real, holds, Nat.le_trans low before, ih behind (Nat.le_refl _)⟩

/-- Of landmarks in order more may be known. -/
theorem InOrder.imp {ok' : Landmark → Prop} (h : InOrder ok hi lo ls)
    (more : ∀ l ∈ ls, ok l → ok' l) : InOrder ok' hi lo ls := by
  induction ls generalizing lo with
  | nil => exact h
  | cons l ls ih =>
    obtain ⟨real, holds, before, behind⟩ := h
    obtain ⟨here, rest⟩ := List.forall_mem_cons.mp more
    exact ⟨real, here holds, before, ih behind rest⟩

theorem inOrder_append :
    InOrder ok hi lo (ls ++ ls') ↔ ∃ mid, InOrder ok mid lo ls ∧ InOrder ok hi mid ls' := by
  induction ls generalizing lo with
  | nil =>
    refine ⟨fun h => ⟨lo, Nat.le_refl lo, h⟩, ?_⟩
    rintro ⟨mid, low, h⟩
    exact h.widen low (Nat.le_refl hi)
  | cons l ls ih =>
    simp only [List.cons_append, InOrder, ih]
    constructor
    · rintro ⟨real, holds, before, mid, first, second⟩
      exact ⟨mid, ⟨real, holds, before, first⟩, second⟩
    · rintro ⟨mid, ⟨real, holds, before, first⟩, second⟩
      exact ⟨real, holds, before, mid, first, second⟩

theorem InOrder.left (h : InOrder ok hi lo (ls ++ ls')) : InOrder ok hi lo ls := by
  obtain ⟨mid, first, second⟩ := inOrder_append.mp h
  exact first.widen (Nat.le_refl lo) second.le

theorem InOrder.right (h : InOrder ok hi lo (ls ++ ls')) : InOrder ok hi lo ls' := by
  obtain ⟨mid, first, second⟩ := inOrder_append.mp h
  exact second.widen first.le (Nat.le_refl hi)

theorem InOrder.tail (h : InOrder ok hi lo (l :: ls)) : InOrder ok hi lo ls :=
  (show InOrder ok hi lo ([l] ++ ls) from h).right

/-- What is left of landmarks in order is in order. -/
theorem InOrder.sublist (h : InOrder ok hi lo ls') (fewer : ls.Sublist ls') :
    InOrder ok hi lo ls := by
  induction fewer generalizing lo with
  | slnil => exact h
  | cons l _ ih => exact ih h.tail
  | cons_cons l _ ih =>
    obtain ⟨real, holds, before, behind⟩ := h
    exact ⟨real, holds, before, ih behind⟩

theorem InOrder.concat (h : InOrder ok lo' lo ls) (real : l.Real) (holds : ok l)
    (behind : lo' ≤ l.start) : InOrder ok l.stop lo (ls ++ [l]) :=
  inOrder_append.mpr ⟨lo', h, real, holds, behind, Nat.le_refl _⟩

/-- An offset may be marked behind landmarks that come before it. -/
theorem InOrder.mark (h : InOrder ok lo' lo ls) (holds : ok (.place (.point hi)))
    (behind : lo' ≤ hi) : InOrder ok hi lo (ls ++ [.place (.point hi)]) :=
  h.concat (l := .place (.point hi)) (Nat.le_refl hi) holds behind

/-! ### Ends -/

/-- The first landmark starts at `p`. -/
def Begins (ls : List Landmark) (p : Nat) : Prop := ∃ l rest, ls = l :: rest ∧ l.start = p

/-- The last landmark stops at `p`. -/
def Stops (ls : List Landmark) (p : Nat) : Prop := ∃ front l, ls = front ++ [l] ∧ l.stop = p

/-- The last landmark is a token that stops at `p`. -/
def Ends (ls : List Landmark) (p : Nat) : Prop := ∃ front s, ls = front ++ [.token s] ∧ s.stop = p

variable {p : Nat} {s : Span}

theorem begins_cons : Begins (l :: ls) l.start := ⟨l, ls, rfl, rfl⟩

theorem Begins.append (h : Begins ls p) : Begins (ls ++ ls') p := by
  obtain ⟨l, rest, rfl, start⟩ := h
  exact ⟨l, rest ++ ls', rfl, start⟩

theorem stops_singleton : Stops [l] l.stop := ⟨[], l, rfl, rfl⟩

theorem Stops.append (h : Stops ls' p) : Stops (ls ++ ls') p := by
  obtain ⟨front, l, rfl, stop⟩ := h
  exact ⟨ls ++ front, l, (List.append_assoc ..).symm, stop⟩

theorem Stops.cons (h : Stops ls p) : Stops (l :: ls) p :=
  show Stops ([l] ++ ls) p from h.append

theorem Ends.stops (h : Ends ls p) : Stops ls p := by
  obtain ⟨front, s, rfl, stop⟩ := h
  exact ⟨front, .token s, rfl, stop⟩

theorem ends_singleton : Ends [.token s] s.stop := ⟨[], s, rfl, rfl⟩

theorem Ends.append (h : Ends ls' p) : Ends (ls ++ ls') p := by
  obtain ⟨front, s, rfl, stop⟩ := h
  exact ⟨ls ++ front, s, (List.append_assoc ..).symm, stop⟩

theorem Ends.cons (h : Ends ls p) : Ends (l :: ls) p := show Ends ([l] ++ ls) p from h.append

theorem InOrder.from_begin (h : InOrder ok hi lo ls) (begins : Begins ls p) :
    lo ≤ p ∧ InOrder ok hi p ls := by
  obtain ⟨l, rest, rfl, rfl⟩ := begins
  obtain ⟨real, holds, before, behind⟩ := h
  exact ⟨before, real, holds, Nat.le_refl _, behind⟩

theorem InOrder.to_stop (h : InOrder ok hi lo ls) (stops : Stops ls p) :
    p ≤ hi ∧ InOrder ok p lo ls := by
  obtain ⟨front, l, rfl, rfl⟩ := stops
  obtain ⟨mid, first, real, holds, before, behind⟩ := inOrder_append.mp h
  exact ⟨behind, inOrder_append.mpr ⟨mid, first, real, holds, before, Nat.le_refl _⟩⟩

/-- Landmarks in order reach from the first to the last one. -/
theorem InOrder.extent {q : Nat} (h : InOrder ok hi lo ls) (begins : Begins ls p)
    (stops : Stops ls q) : lo ≤ p ∧ q ≤ hi ∧ InOrder ok q p ls := by
  obtain ⟨low, from_pos⟩ := h.from_begin begins
  obtain ⟨high, inside⟩ := from_pos.to_stop stops
  exact ⟨low, high, inside⟩

end Landmark

open Landmark (InOrder)

/-! ### The landmarks of a tree -/

def Ident.landmark (i : Ident) : Landmark := .token i.span

def Literal.landmark (l : Literal) : Landmark := .token l.span

/-- A name with the package and the dot before it. -/
def Qualifier.landmarks (q : Option Qualifier) (name : Ident) : List Landmark :=
  q.toList.flatMap (fun q => [q.package.landmark, .token q.dot]) ++ [name.landmark]

def ImportName.landmark : ImportName → Landmark
  | .dot span => .token span
  | .name id => id.landmark

def ImportSpec.landmarks (s : ImportSpec) : List Landmark :=
  s.name.toList.map ImportName.landmark ++ [s.path.landmark]

/-- The arrow of a receiving channel stands before its keyword, that of a sending one behind it. -/
def ChanDir.landmarks (dir : ChanDir) (chanPos : Span) : List Landmark :=
  match dir with
  | .both => [.token chanPos]
  | .send arrow => [.token chanPos, .token arrow]
  | .recv arrow => [.token arrow, .token chanPos]

mutual

/-- The dots of a spread are left out: of several in a call any one may be kept. -/
def Expr.landmarks : Expr → List Landmark
  | .ident name => [name.landmark]
  | .literal lit => [lit.landmark]
  | .func funcPos sig body => .token funcPos :: (sig.landmarks ++ body.landmarks)
  | .composite type lbrace elements rbrace =>
    TypeExpr.landmarksOpt type ++ .token lbrace :: (Expr.landmarksAll elements ++ [.token rbrace])
  | .paren lparen inner rparen => .token lparen :: (inner.landmarks ++ [.token rparen])
  | .selector operand dot member => operand.landmarks ++ [.token dot, member.landmark]
  | .index operand lbrack indices rbrack =>
    operand.landmarks ++ .token lbrack :: (Expr.landmarksAll indices ++ [.token rbrack])
  | .slice operand lbrack lo hi max _ rbrack =>
    operand.landmarks ++ .token lbrack :: (Expr.landmarksOpt lo ++ Expr.landmarksOpt hi ++
      Expr.landmarksOpt max ++ [.token rbrack])
  | .assertion operand dot lparen type rparen =>
    operand.landmarks ++ .token dot :: .token lparen :: (TypeExpr.landmarksOpt type ++
      [.token rparen])
  | .call fn lparen args _ rparen =>
    fn.landmarks ++ .token lparen :: (Expr.landmarksAll args ++ [.token rparen])
  | .unary _ opPos operand => .token opPos :: operand.landmarks
  | .binary left _ opPos right => left.landmarks ++ .token opPos :: right.landmarks
  | .keyValue key colon value => key.landmarks ++ .token colon :: value.landmarks
  | .type t => t.landmarks

def Expr.landmarksOpt : Option Expr → List Landmark
  | none => []
  | some e => e.landmarks

def Expr.landmarksAll : List Expr → List Landmark
  | [] => []
  | e :: es => e.landmarks ++ Expr.landmarksAll es

def TypeExpr.landmarks : TypeExpr → List Landmark
  | .named qualifier name => Qualifier.landmarks qualifier name
  | .generic qualifier name lbrack args rbrack =>
    Qualifier.landmarks qualifier name ++ .token lbrack :: (TypeExpr.landmarksAll args ++
      [.token rbrack])
  | .pointer star elem => .token star :: elem.landmarks
  | .array lbrack len rbrack elem =>
    .token lbrack :: (len.landmarks ++ .token rbrack :: elem.landmarks)
  | .countedArray lbrack dots rbrack elem =>
    .token lbrack :: .token dots :: .token rbrack :: elem.landmarks
  | .slice lbrack rbrack elem => .token lbrack :: .token rbrack :: elem.landmarks
  | .map mapPos lbrack key rbrack value =>
    .token mapPos :: .token lbrack :: (key.landmarks ++ .token rbrack :: value.landmarks)
  | .chan dir chanPos elem => dir.landmarks chanPos ++ elem.landmarks
  | .struct structPos fields => .token structPos :: fields.landmarks
  | .interface interfacePos elements => .token interfacePos :: elements.landmarks
  | .func funcPos sig => funcPos.toList.map .token ++ sig.landmarks
  | .paren lparen inner rparen => .token lparen :: (inner.landmarks ++ [.token rparen])
  | .variadic dots elem => .token dots :: elem.landmarks
  | .union [] => [.missing]
  | .union (term :: terms) => term.landmarks ++ TypeExpr.landmarksAll terms
  | .tilde tildePos inner => .token tildePos :: inner.landmarks

def TypeExpr.landmarksOpt : Option TypeExpr → List Landmark
  | none => []
  | some t => t.landmarks

def TypeExpr.landmarksAll : List TypeExpr → List Landmark
  | [] => []
  | t :: ts => t.landmarks ++ TypeExpr.landmarksAll ts

def Field.landmarks : Field → List Landmark
  | ⟨_, names, type, tag, _⟩ =>
    names.map Ident.landmark ++ type.landmarks ++ tag.toList.map Literal.landmark

def Field.landmarksAll : List Field → List Landmark
  | [] => []
  | f :: fs => f.landmarks ++ Field.landmarksAll fs

/-- Without brackets there is a single field. -/
def FieldList.landmarks : FieldList → List Landmark
  | ⟨some brackets, fields⟩ =>
    .token brackets.left :: (Field.landmarksAll fields ++ [.token brackets.right])
  | ⟨none, [field]⟩ => field.landmarks
  | ⟨none, _⟩ => [.missing]

def FieldList.landmarksOpt : Option FieldList → List Landmark
  | none => []
  | some fields => fields.landmarks

def Signature.landmarks : Signature → List Landmark
  | ⟨params, results⟩ => params.landmarks ++ FieldList.landmarksOpt results

def Block.landmarks : Block → List Landmark
  | ⟨lbrace, stmts, rbrace⟩ => .token lbrace :: (Stmt.landmarksAll stmts ++ [.token rbrace])

def Stmt.landmarks : Stmt → List Landmark
  | .decl d => .entry d :: d.landmarks
  | .empty span => [.place span]
  | .labeled label colon stmt => label.landmark :: .token colon :: stmt.landmarks
  | .expr e => e.landmarks
  | .send chan arrow value => chan.landmarks ++ .token arrow :: value.landmarks
  | .incDec operand _ opPos => operand.landmarks ++ [.token opPos]
  | .assign lhs _ opPos rhs => Expr.landmarksAll lhs ++ .token opPos :: Expr.landmarksAll rhs
  | .go goPos call => .token goPos :: call.landmarks
  | .defer deferPos call => .token deferPos :: call.landmarks
  | .returns returnPos results => .token returnPos :: Expr.landmarksAll results
  | .branch _ kwPos label => .token kwPos :: label.toList.map Ident.landmark
  | .block b => b.landmarks
  | .ifElse ifPos init cond body orElse =>
    .token ifPos :: (Stmt.landmarksOpt init ++ cond.landmarks ++ body.landmarks ++
      Stmt.landmarksOpt orElse)
  | .caseClause casePos values colon body =>
    .token casePos :: (Expr.landmarksAll values ++ .token colon :: Stmt.landmarksAll body)
  | .switch switchPos init tag body =>
    .token switchPos :: (Stmt.landmarksOpt init ++ Expr.landmarksOpt tag ++ body.landmarks)
  | .typeSwitch switchPos init guarded body =>
    .token switchPos :: (Stmt.landmarksOpt init ++ guarded.landmarks ++ body.landmarks)
  | .commClause casePos comm colon body =>
    .token casePos :: (Stmt.landmarksOpt comm ++ .token colon :: Stmt.landmarksAll body)
  | .select selectPos body => .token selectPos :: body.landmarks
  | .forLoop forPos init cond post body =>
    .token forPos :: (Stmt.landmarksOpt init ++ Expr.landmarksOpt cond ++
      Stmt.landmarksOpt post ++ body.landmarks)
  | .range forPos key value op rangePos operand body =>
    .token forPos :: (Expr.landmarksOpt key ++ Expr.landmarksOpt value ++
      op.toList.map (fun o => .token o.2) ++ .token rangePos :: (operand.landmarks ++
      body.landmarks))

def Stmt.landmarksOpt : Option Stmt → List Landmark
  | none => []
  | some s => s.landmarks

def Stmt.landmarksAll : List Stmt → List Landmark
  | [] => []
  | s :: ss => s.landmarks ++ Stmt.landmarksAll ss

/-- Without parentheses there is a single spec. -/
def GenDecl.landmarks : GenDecl → List Landmark
  | ⟨_, kwPos, _, some lparen, specs, some rparen⟩ =>
    .token kwPos :: .token lparen :: (Spec.landmarksAll specs ++ [.token rparen])
  | ⟨_, kwPos, _, none, [spec], none⟩ => .token kwPos :: spec.landmarks
  | _ => [.missing]

/-- Values are there if they are assigned. -/
def Spec.landmarks : Spec → List Landmark
  | .importSpec spec => spec.landmarks
  | .valueSpec _ (name :: names) type none [] _ =>
    (name :: names).map Ident.landmark ++ TypeExpr.landmarksOpt type
  | .valueSpec _ (name :: names) type (some assign) (value :: values) _ =>
    (name :: names).map Ident.landmark ++ TypeExpr.landmarksOpt type ++
      .token assign :: (value.landmarks ++ Expr.landmarksAll values)
  | .valueSpec _ _ _ _ _ _ => [.missing]
  | .typeSpec _ name typeParams assign type _ =>
    name.landmark :: (FieldList.landmarksOpt typeParams ++ assign.toList.map .token ++
      type.landmarks)

def Spec.landmarksAll : List Spec → List Landmark
  | [] => []
  | s :: ss => s.landmarks ++ Spec.landmarksAll ss

end

attribute [grind =] Expr.landmarks Expr.landmarksOpt Expr.landmarksAll TypeExpr.landmarks
  TypeExpr.landmarksOpt TypeExpr.landmarksAll Field.landmarks Field.landmarksAll
  FieldList.landmarks FieldList.landmarksOpt Signature.landmarks Block.landmarks Stmt.landmarks
  Stmt.landmarksOpt Stmt.landmarksAll GenDecl.landmarks Spec.landmarks Spec.landmarksAll

def FuncDecl.landmarks (f : FuncDecl) : List Landmark :=
  .token f.funcPos :: (FieldList.landmarksOpt f.receiver ++ f.name.landmark ::
    (FieldList.landmarksOpt f.typeParams ++ f.sig.landmarks ++
      f.body.toList.flatMap Block.landmarks))

/-- The byte before a declaration belongs to no other one. -/
def Decl.landmarks (d : Decl) : List Landmark :=
  .place (.point (d.pos - 1)) ::
    match d with
    | .gen d => d.landmarks
    | .func f => f.landmarks

def SourceFile.landmarks (f : SourceFile) : List Landmark :=
  .token f.packagePos :: f.name.landmark :: f.decls.flatMap Decl.landmarks

/-- The closing parenthesis of a declaration, if any, is one byte wide. -/
def GenDecl.Narrow (d : GenDecl) : Prop := ∀ rparen ∈ d.rparen, rparen.stop = rparen.start + 1

/-! ### Lists -/

theorem Expr.landmarksAll_eq_flatMap (es : List Expr) :
    Expr.landmarksAll es = es.flatMap Expr.landmarks := by
  induction es with
  | nil => rfl
  | cons e es ih => rw [landmarksAll, ih, List.flatMap_cons]

theorem TypeExpr.landmarksAll_eq_flatMap (ts : List TypeExpr) :
    TypeExpr.landmarksAll ts = ts.flatMap TypeExpr.landmarks := by
  induction ts with
  | nil => rfl
  | cons t ts ih => rw [landmarksAll, ih, List.flatMap_cons]

theorem Field.landmarksAll_eq_flatMap (fs : List Field) :
    Field.landmarksAll fs = fs.flatMap Field.landmarks := by
  induction fs with
  | nil => rfl
  | cons f fs ih => rw [landmarksAll, ih, List.flatMap_cons]

theorem Stmt.landmarksAll_eq_flatMap (ss : List Stmt) :
    Stmt.landmarksAll ss = ss.flatMap Stmt.landmarks := by
  induction ss with
  | nil => rfl
  | cons s ss ih => rw [landmarksAll, ih, List.flatMap_cons]

theorem Spec.landmarksAll_eq_flatMap (ss : List Spec) :
    Spec.landmarksAll ss = ss.flatMap Spec.landmarks := by
  induction ss with
  | nil => rfl
  | cons s ss ih => rw [landmarksAll, ih, List.flatMap_cons]

end GoLayout
