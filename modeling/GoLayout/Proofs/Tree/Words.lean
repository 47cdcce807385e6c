import GoLayout.Tree.Basic

/-!
The words of a tree: its identifiers and literals, as they are met when each node is walked part by
part. They are what a reader of the program goes by; keywords, operators and brackets are not among
them.
-/

namespace GoLayout

/-- An identifier or a literal, with its place. -/
structure Word where
  text : String
  span : Span
deriving DecidableEq, Repr

def Ident.word (i : Ident) : Word := ⟨i.text, i.span⟩

def Literal.word (l : Literal) : Word := ⟨l.text, l.span⟩

/-- The name of the package, where there is one, and the name in it. -/
def Qualifier.words (q : Option Qualifier) (name : Ident) : List Word :=
  (q.toList.map (·.package.word)) ++ [name.word]

/-- A dot in the place of a name is no word. -/
def ImportSpec.words (s : ImportSpec) : List Word :=
  match s.name with
  | some (.name id) => [id.word, s.path.word]
  | _ => [s.path.word]

mutual

def Expr.words : Expr → List Word
  | .ident name => [name.word]
  | .literal lit => [lit.word]
  | .func _ sig body => sig.words ++ body.words
  | .composite type _ elements _ => TypeExpr.wordsOpt type ++ Expr.wordsAll elements
  | .paren _ inner _ => inner.words
  | .selector operand _ member => operand.words ++ [member.word]
  | .index operand _ indices _ => operand.words ++ Expr.wordsAll indices
  | .slice operand _ lo hi max _ _ =>
    operand.words ++ Expr.wordsOpt lo ++ Expr.wordsOpt hi ++ Expr.wordsOpt max
  | .assertion operand _ _ type _ => operand.words ++ TypeExpr.wordsOpt type
  | .call fn _ args _ _ => fn.words ++ Expr.wordsAll args
  | .unary _ _ operand => operand.words
  | .binary left _ _ right => left.words ++ right.words
  | .keyValue key _ value => key.words ++ value.words
  | .type t => t.words

def Expr.wordsOpt : Option Expr → List Word
  | none => []
  | some e => e.words

def Expr.wordsAll : List Expr → List Word
  | [] => []
  | e :: es => e.words ++ Expr.wordsAll es

def TypeExpr.words : TypeExpr → List Word
  | .named qualifier name => Qualifier.words qualifier name
  | .generic qualifier name _ args _ =>
    Qualifier.words qualifier name ++ TypeExpr.wordsAll args
  | .pointer _ elem => elem.words
  | .array _ len _ elem => len.words ++ elem.words
  | .countedArray _ _ _ elem => elem.words
  | .slice _ _ elem => elem.words
  | .map _ _ key _ value => key.words ++ value.words
  | .chan _ _ elem => elem.words
  | .struct _ fields => fields.words
  | .interface _ elements => elements.words
  | .func _ sig => sig.words
  | .paren _ inner _ => inner.words
  | .variadic _ elem => elem.words
  | .union terms => TypeExpr.wordsAll terms
  | .tilde _ inner => inner.words

def TypeExpr.wordsOpt : Option TypeExpr → List Word
  | none => []
  | some t => t.words

def TypeExpr.wordsAll : List TypeExpr → List Word
  | [] => []
  | t :: ts => t.words ++ TypeExpr.wordsAll ts

def Field.words : Field → List Word
  | ⟨_, names, type, tag, _⟩ =>
    names.map Ident.word ++ type.words ++ tag.toList.map Literal.word

def Field.wordsAll : List Field → List Word
  | [] => []
  | f :: fs => f.words ++ Field.wordsAll fs

def FieldList.words : FieldList → List Word
  | ⟨_, fields⟩ => Field.wordsAll fields

def FieldList.wordsOpt : Option FieldList → List Word
  | none => []
  | some fields => fields.words

def Signature.words : Signature → List Word
  | ⟨params, results⟩ => params.words ++ FieldList.wordsOpt results

def Block.words : Block → List Word
  | ⟨_, stmts, _⟩ => Stmt.wordsAll stmts

def Stmt.words : Stmt → List Word
  | .decl d => d.words
  | .empty _ => []
  | .labeled label _ stmt => label.word :: stmt.words
  | .expr e => e.words
  | .send chan _ value => chan.words ++ value.words
  | .incDec operand _ _ => operand.words
  | .assign lhs _ _ rhs => Expr.wordsAll lhs ++ Expr.wordsAll rhs
  | .go _ call => call.words
  | .defer _ call => call.words
  | .returns _ results => Expr.wordsAll results
  | .branch _ _ label => label.toList.map Ident.word
  | .block b => b.words
  | .ifElse _ init cond body orElse =>
    Stmt.wordsOpt init ++ cond.words ++ body.words ++ Stmt.wordsOpt orElse
  | .caseClause _ values _ body => Expr.wordsAll values ++ Stmt.wordsAll body
  | .switch _ init tag body => Stmt.wordsOpt init ++ Expr.wordsOpt tag ++ body.words
  | .typeSwitch _ init guarded body => Stmt.wordsOpt init ++ guarded.words ++ body.words
  | .commClause _ comm _ body => Stmt.wordsOpt comm ++ Stmt.wordsAll body
  | .select _ body => body.words
  | .forLoop _ init cond post body =>
    Stmt.wordsOpt init ++ Expr.wordsOpt cond ++ Stmt.wordsOpt post ++ body.words
  | .range _ key value _ _ operand body =>
    Expr.wordsOpt key ++ Expr.wordsOpt value ++ operand.words ++ body.words

def Stmt.wordsOpt : Option Stmt → List Word
  | none => []
  | some s => s.words

def Stmt.wordsAll : List Stmt → List Word
  | [] => []
  | s :: ss => s.words ++ Stmt.wordsAll ss

def GenDecl.words : GenDecl → List Word
  | ⟨_, _, _, _, specs, _⟩ => Spec.wordsAll specs

def Spec.words : Spec → List Word
  | .importSpec spec => spec.words
  | .valueSpec _ names type _ values _ =>
    names.map Ident.word ++ TypeExpr.wordsOpt type ++ Expr.wordsAll values
  | .typeSpec _ name typeParams _ type _ =>
    name.word :: (FieldList.wordsOpt typeParams ++ type.words)

def Spec.wordsAll : List Spec → List Word
  | [] => []
  | s :: ss => s.words ++ Spec.wordsAll ss

end

-- Proofs about readers open one function of the block each: its equations are worked out here, once.
attribute [local simp] Expr.words Expr.wordsOpt Expr.wordsAll TypeExpr.words TypeExpr.wordsOpt
  TypeExpr.wordsAll Field.words Field.wordsAll FieldList.words FieldList.wordsOpt Signature.words
  Block.words Stmt.words Stmt.wordsOpt Stmt.wordsAll GenDecl.words Spec.words Spec.wordsAll

def FuncDecl.words (f : FuncDecl) : List Word :=
  FieldList.wordsOpt f.receiver ++ f.name.word :: FieldList.wordsOpt f.typeParams ++
    f.sig.words ++ (f.body.map (·.words)).getD []

def Decl.words : Decl → List Word
  | .gen d => d.words
  | .func f => f.words

/-- The words of a file, the name of its package first. -/
def SourceFile.words (f : SourceFile) : List Word := f.name.word :: f.decls.flatMap Decl.words

def Spec.import? : Spec → Option ImportSpec
  | .importSpec spec => some spec
  | _ => none

/-- What a spec stands for in its group: the import, if it is one, and its words. -/
def Spec.view (s : Spec) : Option ImportSpec × List Word := (s.import?, s.words)

theorem Spec.wordsAll_eq (ss : List Spec) :
    Spec.wordsAll ss = (ss.map Spec.view).flatMap (·.2) := by
  induction ss with
  | nil => rfl
  | cons s ss ih => simp [view, ih]

theorem Expr.wordsAll_eq_flatMap (es : List Expr) : Expr.wordsAll es = es.flatMap Expr.words := by
  induction es with
  | nil => rfl
  | cons e es ih => rw [wordsAll, ih, List.flatMap_cons]

theorem TypeExpr.wordsAll_eq_flatMap (ts : List TypeExpr) :
    TypeExpr.wordsAll ts = ts.flatMap TypeExpr.words := by
  induction ts with
  | nil => rfl
  | cons t ts ih => rw [wordsAll, ih, List.flatMap_cons]

theorem Field.wordsAll_eq_flatMap (fs : List Field) :
    Field.wordsAll fs = fs.flatMap Field.words := by
  induction fs with
  | nil => rfl
  | cons f fs ih => rw [wordsAll, ih, List.flatMap_cons]

theorem Stmt.wordsAll_eq_flatMap (ss : List Stmt) : Stmt.wordsAll ss = ss.flatMap Stmt.words := by
  induction ss with
  | nil => rfl
  | cons s ss ih => rw [wordsAll, ih, List.flatMap_cons]

theorem Spec.wordsAll_eq_flatMap (ss : List Spec) : Spec.wordsAll ss = ss.flatMap Spec.words := by
  induction ss with
  | nil => rfl
  | cons s ss ih => rw [wordsAll, ih, List.flatMap_cons]

theorem Expr.wordsAll_idents (names : List Ident) :
    Expr.wordsAll (names.map .ident) = names.map Ident.word := by
  induction names with
  | nil => rfl
  | cons name names ih => simp [ih]

end GoLayout
