import GoLayout.Tree.Extent

/-!
Trees with their tokens in other places. Moving a tree changes nothing but the offsets in it, and
the extent of a node moves with its tokens.
-/

namespace GoLayout

/-- Where offsets go: those at which a token starts, and those at which one ends. An offset of zero
also stands for the place of nothing, so it stays. -/
structure Moving where
  start : Nat → Nat
  stop : Nat → Nat
  start_zero : start 0 = 0
  stop_zero : stop 0 = 0

namespace Moving

variable (m : Moving)

def span (s : Span) : Span := ⟨m.start s.start, m.stop s.stop⟩

def ident (i : Ident) : Ident := ⟨i.text, m.span i.span⟩

def literal (l : Literal) : Literal := ⟨l.kind, l.text, m.span l.span⟩

def qualifier (q : Qualifier) : Qualifier := ⟨m.ident q.package, m.span q.dot⟩

def brackets (b : Brackets) : Brackets := ⟨m.span b.left, m.span b.right⟩

def chanDir : ChanDir → ChanDir
  | .both => .both
  | .send arrow => .send (m.span arrow)
  | .recv arrow => .recv (m.span arrow)

def importName : ImportName → ImportName
  | .dot span => .dot (m.span span)
  | .name id => .name (m.ident id)

def importSpec (s : ImportSpec) : ImportSpec :=
  ⟨s.doc, s.name.map m.importName, m.literal s.path, s.comment⟩

end Moving

variable (m : Moving)

mutual

def Expr.move : Expr → Expr
  | .ident name => .ident (m.ident name)
  | .literal lit => .literal (m.literal lit)
  | .func funcPos sig body => .func (m.span funcPos) sig.move body.move
  | .composite type lbrace elements rbrace =>
    .composite (TypeExpr.moveOpt type) (m.span lbrace) (Expr.moveAll elements) (m.span rbrace)
  | .paren lparen inner rparen => .paren (m.span lparen) inner.move (m.span rparen)
  | .selector operand dot member => .selector operand.move (m.span dot) (m.ident member)
  | .index operand lbrack indices rbrack =>
    .index operand.move (m.span lbrack) (Expr.moveAll indices) (m.span rbrack)
  | .slice operand lbrack lo hi max full rbrack =>
    .slice operand.move (m.span lbrack) (Expr.moveOpt lo) (Expr.moveOpt hi) (Expr.moveOpt max)
      full (m.span rbrack)
  | .assertion operand dot lparen type rparen =>
    .assertion operand.move (m.span dot) (m.span lparen) (TypeExpr.moveOpt type)
      (m.span rparen)
  | .call fn lparen args spread rparen =>
    .call fn.move (m.span lparen) (Expr.moveAll args) (spread.map m.span) (m.span rparen)
  | .unary op opPos operand => .unary op (m.span opPos) operand.move
  | .binary left op opPos right => .binary left.move op (m.span opPos) right.move
  | .keyValue key colon value => .keyValue key.move (m.span colon) value.move
  | .type t => .type t.move

def Expr.moveOpt : Option Expr → Option Expr
  | none => none
  | some e => some e.move

def Expr.moveAll : List Expr → List Expr
  | [] => []
  | e :: es => e.move :: Expr.moveAll es

def TypeExpr.move : TypeExpr → TypeExpr
  | .named qualifier name => .named (qualifier.map m.qualifier) (m.ident name)
  | .generic qualifier name lbrack args rbrack =>
    .generic (qualifier.map m.qualifier) (m.ident name) (m.span lbrack) (TypeExpr.moveAll args)
      (m.span rbrack)
  | .pointer star elem => .pointer (m.span star) elem.move
  | .array lbrack len rbrack elem => .array (m.span lbrack) len.move (m.span rbrack) elem.move
  | .countedArray lbrack dots rbrack elem =>
    .countedArray (m.span lbrack) (m.span dots) (m.span rbrack) elem.move
  | .slice lbrack rbrack elem => .slice (m.span lbrack) (m.span rbrack) elem.move
  | .map mapPos lbrack key rbrack value =>
    .map (m.span mapPos) (m.span lbrack) key.move (m.span rbrack) value.move
  | .chan dir chanPos elem => .chan (m.chanDir dir) (m.span chanPos) elem.move
  | .struct structPos fields => .struct (m.span structPos) fields.move
  | .interface interfacePos elements => .interface (m.span interfacePos) elements.move
  | .func funcPos sig => .func (funcPos.map m.span) sig.move
  | .paren lparen inner rparen => .paren (m.span lparen) inner.move (m.span rparen)
  | .variadic dots elem => .variadic (m.span dots) elem.move
  | .union terms => .union (TypeExpr.moveAll terms)
  | .tilde tildePos inner => .tilde (m.span tildePos) inner.move

def TypeExpr.moveOpt : Option TypeExpr → Option TypeExpr
  | none => none
  | some t => some t.move

def TypeExpr.moveAll : List TypeExpr → List TypeExpr
  | [] => []
  | t :: ts => t.move :: TypeExpr.moveAll ts

def Field.move : Field → Field
  | ⟨doc, names, type, tag, comment⟩ =>
    ⟨doc, names.map m.ident, type.move, tag.map m.literal, comment⟩

def Field.moveAll : List Field → List Field
  | [] => []
  | f :: fs => f.move :: Field.moveAll fs

def FieldList.move : FieldList → FieldList
  | ⟨brackets, fields⟩ => ⟨brackets.map m.brackets, Field.moveAll fields⟩

def FieldList.moveOpt : Option FieldList → Option FieldList
  | none => none
  | some fields => some fields.move

def Signature.move : Signature → Signature
  | ⟨params, results⟩ => ⟨params.move, FieldList.moveOpt results⟩

def Block.move : Block → Block
  | ⟨lbrace, stmts, rbrace⟩ => ⟨m.span lbrace, Stmt.moveAll stmts, m.span rbrace⟩

def Stmt.move : Stmt → Stmt
  | .decl d => .decl d.move
  -- No token stands there, so the point at which the next one starts goes along with it.
  | .empty span => .empty (.point (m.start span.start))
  | .labeled label colon stmt => .labeled (m.ident label) (m.span colon) stmt.move
  | .expr e => .expr e.move
  | .send chan arrow value => .send chan.move (m.span arrow) value.move
  | .incDec operand op opPos => .incDec operand.move op (m.span opPos)
  | .assign lhs op opPos rhs =>
    .assign (Expr.moveAll lhs) op (m.span opPos) (Expr.moveAll rhs)
  | .go goPos call => .go (m.span goPos) call.move
  | .defer deferPos call => .defer (m.span deferPos) call.move
  | .returns returnPos results => .returns (m.span returnPos) (Expr.moveAll results)
  | .branch kind kwPos label => .branch kind (m.span kwPos) (label.map m.ident)
  | .block b => .block b.move
  | .ifElse ifPos init cond body orElse =>
    .ifElse (m.span ifPos) (Stmt.moveOpt init) cond.move body.move (Stmt.moveOpt orElse)
  | .caseClause casePos values colon body =>
    .caseClause (m.span casePos) (Expr.moveAll values) (m.span colon) (Stmt.moveAll body)
  | .switch switchPos init tag body =>
    .switch (m.span switchPos) (Stmt.moveOpt init) (Expr.moveOpt tag) body.move
  | .typeSwitch switchPos init guarded body =>
    .typeSwitch (m.span switchPos) (Stmt.moveOpt init) guarded.move body.move
  | .commClause casePos comm colon body =>
    .commClause (m.span casePos) (Stmt.moveOpt comm) (m.span colon) (Stmt.moveAll body)
  | .select selectPos body => .select (m.span selectPos) body.move
  | .forLoop forPos init cond post body =>
    .forLoop (m.span forPos) (Stmt.moveOpt init) (Expr.moveOpt cond) (Stmt.moveOpt post) body.move
  | .range forPos key value op rangePos operand body =>
    .range (m.span forPos) (Expr.moveOpt key) (Expr.moveOpt value)
      (op.map fun (op, opPos) => (op, m.span opPos)) (m.span rangePos) operand.move body.move

def Stmt.moveOpt : Option Stmt → Option Stmt
  | none => none
  | some s => some s.move

def Stmt.moveAll : List Stmt → List Stmt
  | [] => []
  | s :: ss => s.move :: Stmt.moveAll ss

def GenDecl.move : GenDecl → GenDecl
  | ⟨doc, kwPos, kind, lparen, specs, rparen⟩ =>
    ⟨doc, m.span kwPos, kind, lparen.map m.span, Spec.moveAll specs, rparen.map m.span⟩

def Spec.move : Spec → Spec
  | .importSpec spec => .importSpec (m.importSpec spec)
  | .valueSpec doc names type assign values comment =>
    .valueSpec doc (names.map m.ident) (TypeExpr.moveOpt type) (assign.map m.span)
      (Expr.moveAll values) comment
  | .typeSpec doc name typeParams assign type comment =>
    .typeSpec doc (m.ident name) (FieldList.moveOpt typeParams) (assign.map m.span) type.move
      comment

def Spec.moveAll : List Spec → List Spec
  | [] => []
  | s :: ss => s.move :: Spec.moveAll ss

end

def FuncDecl.move (f : FuncDecl) : FuncDecl :=
  { doc := f.doc
    funcPos := m.span f.funcPos
    receiver := f.receiver.map (·.move m)
    name := m.ident f.name
    typeParams := f.typeParams.map (·.move m)
    sig := f.sig.move m
    body := f.body.map (·.move m) }

def Decl.move : Decl → Decl
  | .gen d => .gen (d.move m)
  | .func f => .func (f.move m)

/-! ### Lists and options -/

section Lists

variable {m}

theorem Expr.moveOpt_eq (o : Option Expr) : Expr.moveOpt m o = o.map (·.move m) := by
  cases o <;> rfl

theorem TypeExpr.moveOpt_eq (o : Option TypeExpr) : TypeExpr.moveOpt m o = o.map (·.move m) := by
  cases o <;> rfl

theorem FieldList.moveOpt_eq (o : Option FieldList) :
    FieldList.moveOpt m o = o.map (·.move m) := by
  cases o <;> rfl

theorem Stmt.moveOpt_eq (o : Option Stmt) : Stmt.moveOpt m o = o.map (·.move m) := by
  cases o <;> rfl

theorem Expr.moveAll_eq (es : List Expr) : Expr.moveAll m es = es.map (·.move m) := by
  induction es with
  | nil => rfl
  | cons e es ih => exact congrArg (e.move m :: ·) ih

theorem TypeExpr.moveAll_eq (ts : List TypeExpr) : TypeExpr.moveAll m ts = ts.map (·.move m) := by
  induction ts with
  | nil => rfl
  | cons t ts ih => exact congrArg (t.move m :: ·) ih

theorem Field.moveAll_eq (fs : List Field) : Field.moveAll m fs = fs.map (·.move m) := by
  induction fs with
  | nil => rfl
  | cons f fs ih => exact congrArg (f.move m :: ·) ih

theorem Stmt.moveAll_eq (ss : List Stmt) : Stmt.moveAll m ss = ss.map (·.move m) := by
  induction ss with
  | nil => rfl
  | cons s ss ih => exact congrArg (s.move m :: ·) ih

theorem Spec.moveAll_eq (ss : List Spec) : Spec.moveAll m ss = ss.map (·.move m) := by
  induction ss with
  | nil => rfl
  | cons s ss ih => exact congrArg (s.move m :: ·) ih

theorem Expr.isSome_moveOpt (o : Option Expr) : (Expr.moveOpt m o).isSome = o.isSome := by
  cases o <;> rfl

theorem Stmt.isSome_moveOpt (o : Option Stmt) : (Stmt.moveOpt m o).isSome = o.isSome := by
  cases o <;> rfl

theorem Stmt.isNone_moveOpt (o : Option Stmt) : (Stmt.moveOpt m o).isNone = o.isNone := by
  cases o <;> rfl

theorem Expr.isEmpty_moveAll (es : List Expr) : (Expr.moveAll m es).isEmpty = es.isEmpty := by
  cases es <;> rfl

end Lists

/-! ### Extents -/

theorem TypeExpr.name_start_move (qualifier : Option Qualifier) (name : Ident) :
    ((qualifier.map m.qualifier).elim (m.ident name) (·.package)).span.start =
      m.start (qualifier.elim name (·.package)).span.start := by
  cases qualifier <;> rfl

mutual

theorem Expr.pos_move : ∀ e : Expr, (e.move m).pos = m.start e.pos
  | .ident _ => rfl
  | .literal _ => rfl
  | .func _ _ _ => rfl
  | .composite (some t) _ _ _ => t.pos_move
  | .composite none _ _ _ => rfl
  | .paren _ _ _ => rfl
  | .selector e _ _ => e.pos_move
  | .index e _ _ _ => e.pos_move
  | .slice e _ _ _ _ _ _ => e.pos_move
  | .assertion e _ _ _ _ => e.pos_move
  | .call e _ _ _ _ => e.pos_move
  | .unary _ _ _ => rfl
  | .binary e _ _ _ => e.pos_move
  | .keyValue e _ _ => e.pos_move
  | .type t => t.pos_move

theorem TypeExpr.pos_move : ∀ t : TypeExpr, (t.move m).pos = m.start t.pos
  | .named qualifier name => TypeExpr.name_start_move m qualifier name
  | .generic qualifier name _ _ _ => TypeExpr.name_start_move m qualifier name
  | .pointer _ _ => rfl
  | .array _ _ _ _ => rfl
  | .countedArray _ _ _ _ => rfl
  | .slice _ _ _ => rfl
  | .map _ _ _ _ _ => rfl
  | .chan (.recv _) _ _ => rfl
  | .chan (.send _) _ _ => rfl
  | .chan .both _ _ => rfl
  | .struct _ _ => rfl
  | .interface _ _ => rfl
  | .func (some _) _ => rfl
  | .func none sig => sig.pos_move
  | .paren _ _ _ => rfl
  | .variadic _ _ => rfl
  | .union terms => TypeExpr.firstPos_move terms
  | .tilde _ _ => rfl

theorem TypeExpr.firstPos_move : ∀ ts : List TypeExpr,
    TypeExpr.firstPos (TypeExpr.moveAll m ts) = m.start (TypeExpr.firstPos ts)
  | [] => m.start_zero.symm
  | t :: _ => t.pos_move

theorem Signature.pos_move : ∀ s : Signature, (s.move m).pos = m.start s.pos
  | ⟨params, _⟩ => params.pos_move

theorem FieldList.pos_move : ∀ l : FieldList, (l.move m).pos = m.start l.pos
  | ⟨some _, _⟩ => rfl
  | ⟨none, fields⟩ => Field.firstPos_move fields

theorem Field.pos_move : ∀ f : Field, (f.move m).pos = m.start f.pos
  | ⟨_, _ :: _, _, _, _⟩ => rfl
  | ⟨_, [], type, _, _⟩ => type.pos_move

theorem Field.firstPos_move : ∀ fs : List Field,
    Field.firstPos (Field.moveAll m fs) = m.start (Field.firstPos fs)
  | [] => m.start_zero.symm
  | f :: _ => f.pos_move

end

mutual

theorem Expr.stop_move : ∀ e : Expr, (e.move m).stop = m.stop e.stop
  | .ident _ => rfl
  | .literal _ => rfl
  | .func _ _ ⟨_, _, _⟩ => rfl
  | .composite _ _ _ _ => rfl
  | .paren _ _ _ => rfl
  | .selector _ _ _ => rfl
  | .index _ _ _ _ => rfl
  | .slice _ _ _ _ _ _ _ => rfl
  | .assertion _ _ _ _ _ => rfl
  | .call _ _ _ _ _ => rfl
  | .unary _ _ e => e.stop_move
  | .binary _ _ _ e => e.stop_move
  | .keyValue _ _ e => e.stop_move
  | .type t => t.stop_move

theorem TypeExpr.stop_move : ∀ t : TypeExpr, (t.move m).stop = m.stop t.stop
  | .named _ _ => rfl
  | .generic _ _ _ _ _ => rfl
  | .pointer _ t => t.stop_move
  | .array _ _ _ t => t.stop_move
  | .countedArray _ _ _ t => t.stop_move
  | .slice _ _ t => t.stop_move
  | .map _ _ _ _ t => t.stop_move
  | .chan _ _ t => t.stop_move
  | .struct _ fields => by
    rw [TypeExpr.move, TypeExpr.stop, TypeExpr.stop, fields.stop?_move]
    cases fields.stop? <;> rfl
  | .interface _ elements => by
    rw [TypeExpr.move, TypeExpr.stop, TypeExpr.stop, elements.stop?_move]
    cases elements.stop? <;> rfl
  | .func _ sig => sig.stop_move
  | .paren _ _ _ => rfl
  | .variadic _ t => t.stop_move
  | .union terms => TypeExpr.lastStop_move terms
  | .tilde _ t => t.stop_move

theorem TypeExpr.lastStop_move : ∀ ts : List TypeExpr,
    TypeExpr.lastStop (TypeExpr.moveAll m ts) = m.stop (TypeExpr.lastStop ts)
  | [] => m.stop_zero.symm
  | [t] => t.stop_move
  | _ :: t :: ts => TypeExpr.lastStop_move (t :: ts)

theorem Signature.stop_move : ∀ s : Signature, (s.move m).stop = m.stop s.stop
  | ⟨params, none⟩ => by
    rw [Signature.move, FieldList.moveOpt, Signature.stop, Signature.stop, params.stop?_move]
    cases params.stop? with
    | none => exact m.stop_zero.symm
    | some _ => rfl
  | ⟨params, some results⟩ => by
    rw [Signature.move, FieldList.moveOpt, Signature.stop, Signature.stop, params.stop?_move,
      results.stop?_move]
    cases results.stop? with
    | some _ => rfl
    | none =>
      cases params.stop? with
      | none => exact m.stop_zero.symm
      | some _ => rfl

theorem FieldList.stop?_move : ∀ l : FieldList, (l.move m).stop? = l.stop?.map m.stop
  | ⟨some _, _⟩ => rfl
  | ⟨none, fields⟩ => Field.lastStop?_move fields

theorem Field.stop_move : ∀ f : Field, (f.move m).stop = m.stop f.stop
  | ⟨_, _, _, some _, _⟩ => rfl
  | ⟨_, _, type, none, _⟩ => type.stop_move

theorem Field.lastStop?_move : ∀ fs : List Field,
    Field.lastStop? (Field.moveAll m fs) = (Field.lastStop? fs).map m.stop
  | [] => rfl
  | [f] => congrArg some f.stop_move
  | _ :: f :: fs => Field.lastStop?_move (f :: fs)

end

theorem Spec.pos_move (s : Spec) : (s.move m).pos = m.start s.pos := by
  cases s with
  | importSpec spec =>
    obtain ⟨doc, name, path, comment⟩ := spec
    rcases name with - | span | id <;> rfl
  | valueSpec doc names type assign values comment =>
    cases names with
    | nil => exact m.start_zero.symm
    | cons name names => rfl
  | typeSpec doc name typeParams assign type comment => rfl

theorem Spec.stop_move (s : Spec) : (s.move m).stop = m.stop s.stop := by
  cases s with
  | importSpec spec => rfl
  | valueSpec doc names type assign values comment =>
    simp only [Spec.move, Spec.stop, Expr.moveAll_eq, List.getLast?_map]
    cases values.getLast? with
    | some value => exact value.stop_move m
    | none =>
      cases type with
      | some type => exact type.stop_move m
      | none =>
        dsimp only [Option.map_none, TypeExpr.moveOpt]
        cases names.getLast? with
        | none => exact m.stop_zero.symm
        | some name => rfl
  | typeSpec doc name typeParams assign type comment => exact type.stop_move m

theorem GenDecl.pos_move (d : GenDecl) : (d.move m).pos = m.start d.pos := by
  cases d
  rfl

theorem Block.lbrace_move (b : Block) : (b.move m).lbrace = m.span b.lbrace := by
  cases b
  rfl

theorem FieldList.brackets_move (l : FieldList) :
    (l.move m).brackets = l.brackets.map m.brackets := by
  cases l
  rfl

theorem Stmt.pos_move (s : Stmt) : (s.move m).pos = m.start s.pos := by
  cases s with
  | decl d => exact d.pos_move m
  | block b => exact congrArg Span.start (b.lbrace_move m)
  | expr e => exact e.pos_move m
  | send chan arrow value => exact chan.pos_move m
  | incDec operand op opPos => exact operand.pos_move m
  | assign lhs op opPos rhs =>
    cases lhs with
    | nil => rfl
    | cons e lhs => exact e.pos_move m
  | _ => rfl

theorem Decl.pos_move (d : Decl) : (d.move m).pos = m.start d.pos := by
  cases d with
  | gen d => exact d.pos_move m
  | func f => rfl

end GoLayout
