import GoLayout.Proofs.Tree.Alike

/-!
What a copy changes in a node. A node is taken apart into its slots: the places of its tokens,
those of the tokens that it may lack, and the links to its comments, in the order in which they
stand in it. A copy has its slots filled one by one from those of the original.
-/

namespace GoLayout

/-- A place in a node that a copy fills in anew. -/
inductive Slot where
  | token (span : Span)
  | optional (span : Option Span)
  | comments (link : Link)

namespace Slot

/-- The slot of a copy: tokens where they are placed, optional ones if they are there, and no
comments. -/
def copy (c : Copying) : Slot → Slot
  | .token span => .token (c.place span)
  | .optional span => .optional (span.map c.place)
  | .comments _ => .comments none

/-- A slot with its tokens at `pos`. -/
def restamp (pos : Nat) : Slot → Slot
  | .token _ => .token (.point pos)
  | .optional span => .optional (span.map fun _ => .point pos)
  | .comments _ => .comments none

theorem copy_stamp (pos : Nat) (s : Slot) : s.copy (.stamp pos) = s.restamp pos := by
  cases s <;> rfl

end Slot

def Ident.slots (i : Ident) : List Slot := [.token i.span]

def Literal.slots (l : Literal) : List Slot := [.token l.span]

def Qualifier.slots (q : Qualifier) : List Slot := [.token q.package.span, .token q.dot]

def Qualifier.slotsOpt : Option Qualifier → List Slot
  | none => []
  | some q => q.slots

def Ident.slotsOpt : Option Ident → List Slot
  | none => []
  | some i => i.slots

def Literal.slotsOpt : Option Literal → List Slot
  | none => []
  | some l => l.slots

def Ident.slotsAll : List Ident → List Slot
  | [] => []
  | i :: is => i.slots ++ Ident.slotsAll is

def Brackets.slotsOpt (b : Option Brackets) : List Slot :=
  [.optional (b.map (·.left)), .optional (b.map (·.right))]

def ChanDir.slots : ChanDir → List Slot
  | .both => []
  | .send arrow => [.token arrow]
  | .recv arrow => [.token arrow]

def ImportName.slotsOpt : Option ImportName → List Slot
  | none => []
  | some (.dot span) => [.token span]
  | some (.name id) => id.slots

def ImportSpec.slots (s : ImportSpec) : List Slot :=
  .comments s.doc :: (ImportName.slotsOpt s.name ++ s.path.slots ++ [.comments s.comment])

mutual

def Expr.slots : Expr → List Slot
  | .ident name => name.slots
  | .literal lit => lit.slots
  | .func funcPos sig body => .token funcPos :: (sig.slots ++ body.slots)
  | .composite type lbrace elements rbrace =>
    TypeExpr.slotsOpt type ++ .token lbrace :: (Expr.slotsAll elements ++ [.token rbrace])
  | .paren lparen inner rparen => .token lparen :: (inner.slots ++ [.token rparen])
  | .selector operand dot member => operand.slots ++ .token dot :: member.slots
  | .index operand lbrack indices rbrack =>
    operand.slots ++ .token lbrack :: (Expr.slotsAll indices ++ [.token rbrack])
  | .slice operand lbrack lo hi max _ rbrack =>
    operand.slots ++ .token lbrack ::
      (Expr.slotsOpt lo ++ Expr.slotsOpt hi ++ Expr.slotsOpt max ++ [.token rbrack])
  | .assertion operand dot lparen type rparen =>
    operand.slots ++ .token dot :: .token lparen :: (TypeExpr.slotsOpt type ++ [.token rparen])
  | .call fn lparen args spread rparen =>
    fn.slots ++ .token lparen :: (Expr.slotsAll args ++ [.optional spread, .token rparen])
  | .unary _ opPos operand => .token opPos :: operand.slots
  | .binary left _ opPos right => left.slots ++ .token opPos :: right.slots
  | .keyValue key colon value => key.slots ++ .token colon :: value.slots
  | .type t => t.slots

def Expr.slotsOpt : Option Expr → List Slot
  | none => []
  | some e => e.slots

def Expr.slotsAll : List Expr → List Slot
  | [] => []
  | e :: es => e.slots ++ Expr.slotsAll es

def TypeExpr.slots : TypeExpr → List Slot
  | .named qualifier name => Qualifier.slotsOpt qualifier ++ name.slots
  | .generic qualifier name lbrack args rbrack =>
    Qualifier.slotsOpt qualifier ++ name.slots ++ .token lbrack ::
      (TypeExpr.slotsAll args ++ [.token rbrack])
  | .pointer star elem => .token star :: elem.slots
  | .array lbrack len rbrack elem => .token lbrack :: (len.slots ++ .token rbrack :: elem.slots)
  | .countedArray lbrack dots rbrack elem =>
    .token lbrack :: .token dots :: .token rbrack :: elem.slots
  | .slice lbrack rbrack elem => .token lbrack :: .token rbrack :: elem.slots
  | .map mapPos lbrack key rbrack value =>
    .token mapPos :: .token lbrack :: (key.slots ++ .token rbrack :: value.slots)
  | .chan dir chanPos elem => dir.slots ++ .token chanPos :: elem.slots
  | .struct structPos fields => .token structPos :: fields.slots
  | .interface interfacePos elements => .token interfacePos :: elements.slots
  | .func funcPos sig => .optional funcPos :: sig.slots
  | .paren lparen inner rparen => .token lparen :: (inner.slots ++ [.token rparen])
  | .variadic dots elem => .token dots :: elem.slots
  | .union terms => TypeExpr.slotsAll terms
  | .tilde tildePos inner => .token tildePos :: inner.slots

def TypeExpr.slotsOpt : Option TypeExpr → List Slot
  | none => []
  | some t => t.slots

def TypeExpr.slotsAll : List TypeExpr → List Slot
  | [] => []
  | t :: ts => t.slots ++ TypeExpr.slotsAll ts

def Field.slots : Field → List Slot
  | ⟨doc, names, type, tag, comment⟩ =>
    .comments doc ::
      (Ident.slotsAll names ++ type.slots ++ Literal.slotsOpt tag ++ [.comments comment])

def Field.slotsAll : List Field → List Slot
  | [] => []
  | f :: fs => f.slots ++ Field.slotsAll fs

def FieldList.slots : FieldList → List Slot
  | ⟨brackets, fields⟩ => Brackets.slotsOpt brackets ++ Field.slotsAll fields

def FieldList.slotsOpt : Option FieldList → List Slot
  | none => []
  | some fields => fields.slots

def Signature.slots : Signature → List Slot
  | ⟨params, results⟩ => params.slots ++ FieldList.slotsOpt results

def Block.slots : Block → List Slot
  | ⟨lbrace, stmts, rbrace⟩ => .token lbrace :: (Stmt.slotsAll stmts ++ [.token rbrace])

def Stmt.slots : Stmt → List Slot
  | .decl d => d.slots
  | .empty span => [.token span]
  | .labeled label colon stmt => label.slots ++ .token colon :: stmt.slots
  | .expr e => e.slots
  | .send chan arrow value => chan.slots ++ .token arrow :: value.slots
  | .incDec operand _ opPos => operand.slots ++ [.token opPos]
  | .assign lhs _ opPos rhs => Expr.slotsAll lhs ++ .token opPos :: Expr.slotsAll rhs
  | .go goPos call => .token goPos :: call.slots
  | .defer deferPos call => .token deferPos :: call.slots
  | .returns returnPos results => .token returnPos :: Expr.slotsAll results
  | .branch _ kwPos label => .token kwPos :: Ident.slotsOpt label
  | .block b => b.slots
  | .ifElse ifPos init cond body orElse =>
    .token ifPos :: (Stmt.slotsOpt init ++ cond.slots ++ body.slots ++ Stmt.slotsOpt orElse)
  | .caseClause casePos values colon body =>
    .token casePos :: (Expr.slotsAll values ++ .token colon :: Stmt.slotsAll body)
  | .switch switchPos init tag body =>
    .token switchPos :: (Stmt.slotsOpt init ++ Expr.slotsOpt tag ++ body.slots)
  | .typeSwitch switchPos init guarded body =>
    .token switchPos :: (Stmt.slotsOpt init ++ guarded.slots ++ body.slots)
  | .commClause casePos comm colon body =>
    .token casePos :: (Stmt.slotsOpt comm ++ .token colon :: Stmt.slotsAll body)
  | .select selectPos body => .token selectPos :: body.slots
  | .forLoop forPos init cond post body =>
    .token forPos ::
      (Stmt.slotsOpt init ++ Expr.slotsOpt cond ++ Stmt.slotsOpt post ++ body.slots)
  | .range forPos key value op rangePos operand body =>
    .token forPos :: (Expr.slotsOpt key ++ Expr.slotsOpt value ++
      .optional (op.map (·.2)) :: .token rangePos :: (operand.slots ++ body.slots))

def Stmt.slotsOpt : Option Stmt → List Slot
  | none => []
  | some s => s.slots

def Stmt.slotsAll : List Stmt → List Slot
  | [] => []
  | s :: ss => s.slots ++ Stmt.slotsAll ss

def GenDecl.slots : GenDecl → List Slot
  | ⟨doc, kwPos, _, lparen, specs, rparen⟩ =>
    .comments doc :: .token kwPos :: .optional lparen ::
      (Spec.slotsAll specs ++ [.optional rparen])

def Spec.slots : Spec → List Slot
  | .importSpec spec => spec.slots
  | .valueSpec doc names type assign values comment =>
    .comments doc :: (Ident.slotsAll names ++ TypeExpr.slotsOpt type ++
      .optional assign :: (Expr.slotsAll values ++ [.comments comment]))
  | .typeSpec doc name typeParams assign type comment =>
    .comments doc :: (name.slots ++ FieldList.slotsOpt typeParams ++
      .optional assign :: (type.slots ++ [.comments comment]))

def Spec.slotsAll : List Spec → List Slot
  | [] => []
  | s :: ss => s.slots ++ Spec.slotsAll ss

end

def Block.slotsOpt : Option Block → List Slot
  | none => []
  | some b => b.slots

def FuncDecl.slots (f : FuncDecl) : List Slot :=
  .comments f.doc :: .token f.funcPos ::
    (FieldList.slotsOpt f.receiver ++ f.name.slots ++ FieldList.slotsOpt f.typeParams ++
      f.sig.slots ++ Block.slotsOpt f.body)

def Node.slots : Node → List Slot
  | .decl d => d.slots
  | .func f => f.slots
  | .stmt s => s.slots
  | .expr e => e.slots
  | .type t => t.slots
  | .field f => f.slots
  | .sig s => s.slots

/-! ### Slots of copies -/

section Copies

-- The recursive theorems below share their hypothesis, though not each of them uses it.
set_option linter.unusedSectionVars false

variable {c : Copying}

attribute [local simp] Slot.copy

@[local simp]
theorem Ident.slots_copy (i : Ident) : (c.ident i).slots = i.slots.map (·.copy c) := rfl

@[local simp]
theorem Literal.slots_copy (l : Literal) : (c.literal l).slots = l.slots.map (·.copy c) := rfl

@[local simp]
theorem Qualifier.slots_copyOpt (q : Option Qualifier) :
    Qualifier.slotsOpt (q.map c.qualifier) = (Qualifier.slotsOpt q).map (·.copy c) := by
  cases q <;> rfl

@[local simp]
theorem Ident.slots_copyOpt (i : Option Ident) :
    Ident.slotsOpt (i.map c.ident) = (Ident.slotsOpt i).map (·.copy c) := by
  cases i <;> rfl

@[local simp]
theorem Literal.slots_copyOpt (l : Option Literal) :
    Literal.slotsOpt (l.map c.literal) = (Literal.slotsOpt l).map (·.copy c) := by
  cases l <;> rfl

@[local simp]
theorem Ident.slots_copyAll (is : List Ident) :
    Ident.slotsAll (is.map c.ident) = (Ident.slotsAll is).map (·.copy c) := by
  induction is with
  | nil => rfl
  | cons i is ih => simp [Ident.slotsAll, ih]

@[local simp]
theorem Brackets.slots_copyOpt (b : Option Brackets) :
    Brackets.slotsOpt (b.map c.brackets) = (Brackets.slotsOpt b).map (·.copy c) := by
  cases b <;> rfl

@[local simp]
theorem ChanDir.slots_copy (dir : ChanDir) :
    (c.chanDir dir).slots = dir.slots.map (·.copy c) := by
  cases dir <;> rfl

@[local simp]
theorem ImportSpec.slots_copy (s : ImportSpec) :
    (c.importSpec s).slots = s.slots.map (·.copy c) := by
  obtain ⟨doc, name, path, comment⟩ := s
  rcases name with - | span | id <;> rfl

variable (plain : ∀ name, c.fill name = none)

include plain

mutual

theorem Expr.slots_copy : ∀ e : Expr, (e.copy c).slots = e.slots.map (·.copy c)
  | .ident name => by simp [Expr.copy, Expr.slots, plain]
  | .literal _ => by simp [Expr.copy, Expr.slots]
  | .func _ sig body => by simp [Expr.copy, Expr.slots, sig.slots_copy, body.slots_copy]
  | .composite type _ elements _ => by
    simp [Expr.copy, Expr.slots, TypeExpr.slots_copyOpt type, Expr.slots_copyAll elements]
  | .paren _ inner _ => by simp [Expr.copy, Expr.slots, inner.slots_copy]
  | .selector operand _ _ => by simp [Expr.copy, Expr.slots, operand.slots_copy]
  | .index operand _ indices _ => by
    simp [Expr.copy, Expr.slots, operand.slots_copy, Expr.slots_copyAll indices]
  | .slice operand _ lo hi max _ _ => by
    simp [Expr.copy, Expr.slots, operand.slots_copy, Expr.slots_copyOpt lo,
      Expr.slots_copyOpt hi, Expr.slots_copyOpt max]
  | .assertion operand _ _ type _ => by
    simp [Expr.copy, Expr.slots, operand.slots_copy, TypeExpr.slots_copyOpt type]
  | .call fn _ args _ _ => by
    simp [Expr.copy, Expr.slots, fn.slots_copy, Expr.slots_copyAll args]
  | .unary _ _ operand => by simp [Expr.copy, Expr.slots, operand.slots_copy]
  | .binary left _ _ right => by
    simp [Expr.copy, Expr.slots, left.slots_copy, right.slots_copy]
  | .keyValue key _ value => by simp [Expr.copy, Expr.slots, key.slots_copy, value.slots_copy]
  | .type t => t.slots_copy

theorem Expr.slots_copyOpt : ∀ o : Option Expr,
    Expr.slotsOpt (Expr.copyOpt c o) = (Expr.slotsOpt o).map (·.copy c)
  | none => rfl
  | some e => e.slots_copy

theorem Expr.slots_copyAll : ∀ es : List Expr,
    Expr.slotsAll (Expr.copyAll c es) = (Expr.slotsAll es).map (·.copy c)
  | [] => rfl
  | e :: es => by
    rw [Expr.copyAll, Expr.slotsAll, e.slots_copy, Expr.slots_copyAll es, ← List.map_append,
      Expr.slotsAll]

theorem TypeExpr.slots_copy : ∀ t : TypeExpr, (t.copy c).slots = t.slots.map (·.copy c)
  | .named _ _ => by simp [TypeExpr.copy, TypeExpr.slots]
  | .generic _ _ _ args _ => by simp [TypeExpr.copy, TypeExpr.slots, TypeExpr.slots_copyAll args]
  | .pointer _ elem => by simp [TypeExpr.copy, TypeExpr.slots, elem.slots_copy]
  | .array _ len _ elem => by
    simp [TypeExpr.copy, TypeExpr.slots, len.slots_copy, elem.slots_copy]
  | .countedArray _ _ _ elem => by simp [TypeExpr.copy, TypeExpr.slots, elem.slots_copy]
  | .slice _ _ elem => by simp [TypeExpr.copy, TypeExpr.slots, elem.slots_copy]
  | .map _ _ key _ value => by
    simp [TypeExpr.copy, TypeExpr.slots, key.slots_copy, value.slots_copy]
  | .chan _ _ elem => by simp [TypeExpr.copy, TypeExpr.slots, elem.slots_copy]
  | .struct _ fields => by simp [TypeExpr.copy, TypeExpr.slots, fields.slots_copy]
  | .interface _ elements => by simp [TypeExpr.copy, TypeExpr.slots, elements.slots_copy]
  | .func _ sig => by simp [TypeExpr.copy, TypeExpr.slots, sig.slots_copy]
  | .paren _ inner _ => by simp [TypeExpr.copy, TypeExpr.slots, inner.slots_copy]
  | .variadic _ elem => by simp [TypeExpr.copy, TypeExpr.slots, elem.slots_copy]
  | .union terms => TypeExpr.slots_copyAll terms
  | .tilde _ inner => by simp [TypeExpr.copy, TypeExpr.slots, inner.slots_copy]

theorem TypeExpr.slots_copyOpt : ∀ o : Option TypeExpr,
    TypeExpr.slotsOpt (TypeExpr.copyOpt c o) = (TypeExpr.slotsOpt o).map (·.copy c)
  | none => rfl
  | some t => t.slots_copy

theorem TypeExpr.slots_copyAll : ∀ ts : List TypeExpr,
    TypeExpr.slotsAll (TypeExpr.copyAll c ts) = (TypeExpr.slotsAll ts).map (·.copy c)
  | [] => rfl
  | t :: ts => by
    rw [TypeExpr.copyAll, TypeExpr.slotsAll, t.slots_copy, TypeExpr.slots_copyAll ts,
      ← List.map_append, TypeExpr.slotsAll]

theorem Field.slots_copy : ∀ f : Field, (f.copy c).slots = f.slots.map (·.copy c)
  | ⟨_, _, type, _, _⟩ => by simp [Field.copy, Field.slots, type.slots_copy]

theorem Field.slots_copyAll : ∀ fs : List Field,
    Field.slotsAll (Field.copyAll c fs) = (Field.slotsAll fs).map (·.copy c)
  | [] => rfl
  | f :: fs => by
    rw [Field.copyAll, Field.slotsAll, f.slots_copy, Field.slots_copyAll fs, ← List.map_append,
      Field.slotsAll]

theorem FieldList.slots_copy : ∀ l : FieldList, (l.copy c).slots = l.slots.map (·.copy c)
  | ⟨_, fields⟩ => by simp [FieldList.copy, FieldList.slots, Field.slots_copyAll fields]

theorem FieldList.slots_copyOpt : ∀ o : Option FieldList,
    FieldList.slotsOpt (FieldList.copyOpt c o) = (FieldList.slotsOpt o).map (·.copy c)
  | none => rfl
  | some l => l.slots_copy

theorem Signature.slots_copy : ∀ s : Signature, (s.copy c).slots = s.slots.map (·.copy c)
  | ⟨params, results⟩ => by
    simp [Signature.copy, Signature.slots, params.slots_copy, FieldList.slots_copyOpt results]

theorem Block.slots_copy : ∀ b : Block, (b.copy c).slots = b.slots.map (·.copy c)
  | ⟨_, stmts, _⟩ => by simp [Block.copy, Block.slots, Stmt.slots_copyAll stmts]

theorem Stmt.slots_copy : ∀ s : Stmt, (s.copy c).slots = s.slots.map (·.copy c)
  | .decl d => d.slots_copy
  | .empty _ => rfl
  | .labeled _ _ stmt => by simp [Stmt.copy, Stmt.slots, stmt.slots_copy]
  | .expr e => e.slots_copy
  | .send chan _ value => by simp [Stmt.copy, Stmt.slots, chan.slots_copy, value.slots_copy]
  | .incDec operand _ _ => by simp [Stmt.copy, Stmt.slots, operand.slots_copy]
  | .assign lhs _ _ rhs => by
    simp [Stmt.copy, Stmt.slots, Expr.slots_copyAll lhs, Expr.slots_copyAll rhs]
  | .go _ call => by simp [Stmt.copy, Stmt.slots, call.slots_copy]
  | .defer _ call => by simp [Stmt.copy, Stmt.slots, call.slots_copy]
  | .returns _ results => by simp [Stmt.copy, Stmt.slots, Expr.slots_copyAll results]
  | .branch _ _ _ => by simp [Stmt.copy, Stmt.slots]
  | .block b => b.slots_copy
  | .ifElse _ init cond body orElse => by
    simp [Stmt.copy, Stmt.slots, Stmt.slots_copyOpt init, cond.slots_copy, body.slots_copy,
      Stmt.slots_copyOpt orElse]
  | .caseClause _ values _ body => by
    simp [Stmt.copy, Stmt.slots, Expr.slots_copyAll values, Stmt.slots_copyAll body]
  | .switch _ init tag body => by
    simp [Stmt.copy, Stmt.slots, Stmt.slots_copyOpt init, Expr.slots_copyOpt tag, body.slots_copy]
  | .typeSwitch _ init guarded body => by
    simp [Stmt.copy, Stmt.slots, Stmt.slots_copyOpt init, guarded.slots_copy, body.slots_copy]
  | .commClause _ comm _ body => by
    simp [Stmt.copy, Stmt.slots, Stmt.slots_copyOpt comm, Stmt.slots_copyAll body]
  | .select _ body => by simp [Stmt.copy, Stmt.slots, body.slots_copy]
  | .forLoop _ init cond post body => by
    simp [Stmt.copy, Stmt.slots, Stmt.slots_copyOpt init, Expr.slots_copyOpt cond,
      Stmt.slots_copyOpt post, body.slots_copy]
  | .range _ key value _ _ operand body => by
    simp [Stmt.copy, Stmt.slots, Expr.slots_copyOpt key, Expr.slots_copyOpt value,
      operand.slots_copy, body.slots_copy, Function.comp_def]

theorem Stmt.slots_copyOpt : ∀ o : Option Stmt,
    Stmt.slotsOpt (Stmt.copyOpt c o) = (Stmt.slotsOpt o).map (·.copy c)
  | none => rfl
  | some s => s.slots_copy

theorem Stmt.slots_copyAll : ∀ ss : List Stmt,
    Stmt.slotsAll (Stmt.copyAll c ss) = (Stmt.slotsAll ss).map (·.copy c)
  | [] => rfl
  | s :: ss => by
    rw [Stmt.copyAll, Stmt.slotsAll, s.slots_copy, Stmt.slots_copyAll ss, ← List.map_append,
      Stmt.slotsAll]

theorem GenDecl.slots_copy : ∀ d : GenDecl, (d.copy c).slots = d.slots.map (·.copy c)
  | ⟨_, _, _, _, specs, _⟩ => by simp [GenDecl.copy, GenDecl.slots, Spec.slots_copyAll specs]

theorem Spec.slots_copy : ∀ s : Spec, (s.copy c).slots = s.slots.map (·.copy c)
  | .importSpec _ => by simp [Spec.copy, Spec.slots]
  | .valueSpec _ _ type _ values _ => by
    simp [Spec.copy, Spec.slots, TypeExpr.slots_copyOpt type, Expr.slots_copyAll values]
  | .typeSpec _ _ typeParams _ type _ => by
    simp [Spec.copy, Spec.slots, FieldList.slots_copyOpt typeParams, type.slots_copy]

theorem Spec.slots_copyAll : ∀ ss : List Spec,
    Spec.slotsAll (Spec.copyAll c ss) = (Spec.slotsAll ss).map (·.copy c)
  | [] => rfl
  | s :: ss => by
    rw [Spec.copyAll, Spec.slotsAll, s.slots_copy, Spec.slots_copyAll ss, ← List.map_append,
      Spec.slotsAll]

end

theorem FuncDecl.slots_copy (f : FuncDecl) : (f.copy c).slots = f.slots.map (·.copy c) := by
  have ofLists (o : Option FieldList) :
      FieldList.slotsOpt (o.map (·.copy c)) = (FieldList.slotsOpt o).map (·.copy c) := by
    cases o with
    | none => rfl
    | some l => exact l.slots_copy plain
  have ofBody (o : Option Block) :
      Block.slotsOpt (o.map (·.copy c)) = (Block.slotsOpt o).map (·.copy c) := by
    cases o with
    | none => rfl
    | some b => exact b.slots_copy plain
  simp [FuncDecl.copy, FuncDecl.slots, ofLists, ofBody, f.sig.slots_copy plain]

theorem Node.slots_copy (n : Node) : (n.copy c).slots = n.slots.map (·.copy c) := by
  cases n with
  | decl d => exact d.slots_copy plain
  | func f => exact f.slots_copy plain
  | stmt s => exact s.slots_copy plain
  | expr e => exact e.slots_copy plain
  | type t => exact t.slots_copy plain
  | field f => exact f.slots_copy plain
  | sig s => exact s.slots_copy plain

end Copies

namespace Node

/-- A copy with every token at one place is like the original. Its tokens are at that place, those
that may be lacking are there exactly if they are in the original, and it has no comments. -/
theorem restamp_facts (n : Node) (pos : Nat) :
    (n.restamp pos).alike n = true ∧ (n.restamp pos).slots = n.slots.map (·.restamp pos) := by
  refine ⟨alike_iff.mpr (shape_copy (fun _ => rfl) n), ?_⟩
  rw [restamp, slots_copy fun _ => rfl]
  exact List.map_congr_left fun s _ => s.copy_stamp pos

/-- Likeness of nodes is an equivalence: two nodes are alike if they have one shape, and only then.
Restamping stays within its classes. -/
theorem alike_equivalence :
    (∀ a b : Node, a.alike b = true ↔ a.shape = b.shape) ∧
    Equivalence (fun a b : Node => a.alike b = true) ∧
    ∀ (n : Node) (pos : Nat),
      (n.restamp pos).alike n = true ∧ (n.restamp pos).slots = n.slots.map (·.restamp pos) := by
  refine ⟨fun a b => alike_iff, ⟨?_, ?_, ?_⟩, restamp_facts⟩
  · intro n
    exact alike_iff.mpr rfl
  · intro a b same
    exact alike_iff.mpr (alike_iff.mp same).symm
  · intro a b c first second
    exact alike_iff.mpr ((alike_iff.mp first).trans (alike_iff.mp second))

end Node

end GoLayout
