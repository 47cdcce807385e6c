import GoLayout.Layout.Print
import GoLayout.Tree.Extent

/-!
The layouts of the nodes of a tree. Lines break only where Go allows it: between statements, specs
and fields, behind the commas of a list and binary operators, and before the token that closes a
list. What a list, a block or a declaration puts on lines of its own is indented: the indentation is
raised before it and lowered behind it, by hand in each place.
-/

namespace GoLayout

/-- A node in a list: its extent and its layout. -/
structure Item where
  extent : Span
  layout : Layout

namespace Layout

/-! ### Lists -/

/-- Names with commas between them. -/
def names : List Ident → Layout
  | [] => nil
  | name :: rest =>
    token name.span name.text .glue ++
      concat (rest.map fun n => extra "," .glue ++ token n.span n.text .space)

/-- Items on lines of their own. -/
def stacked (items : List Item) : Layout :=
  concat (items.map fun i => gap i.extent.start .line ++ i.layout)

/-- Items behind the first one of a list, with the commas before them. -/
def further (items : List Item) : Layout :=
  concat (items.map fun i => extra "," .glue ++ gap i.extent.start .lineOrSpace ++ i.layout)

/-- Whether an item starts on a later line than the one before it ends, the first of them compared
with `prev`; also the line on which the last one ends. -/
def breaksAfter (lines : LineTable) : (prev : Nat) → List Item → Bool × Nat
  | prev, [] => (false, prev)
  | prev, i :: rest =>
    let (broken, last) := breaksAfter lines (lines.lastLine i.extent) rest
    (prev < lines.line i.extent.start || broken, last)

/-- Whether a list in brackets is broken somewhere. -/
def isBroken (lines : LineTable) (brackets : Option Brackets) (items : List Item) : Bool :=
  match brackets with
  | none => false
  | some b =>
    let (broken, last) := breaksAfter lines (lines.lastLine b.left) items
    broken || last < lines.line b.right.start

/-- A list in brackets, with the dots that may follow the last item. -/
def bracketed (lines : LineTable) (brackets : Option Brackets) (leftText rightText : String)
    (items : List Item) (spread : Option Span) (sep : Sep) : Layout :=
  let inner := match items with
    | [] => nil
    | i :: rest => gap i.extent.start .lineOrGlue ++ i.layout ++ further rest
  let dots := match spread with
    | some span => token span "..." .glue
    | none => nil
  let broken := isBroken lines brackets items
  match brackets with
  | some b =>
    let comma := if items.isEmpty then nil else lastComma b.right.start
    token b.left leftText sep ++ indentIf broken ++ inner ++ dots ++ comma ++
      comments (some b.right.start) .lineOrGlue ++ dedentIf broken ++
      token b.right rightText .lineOrGlue
  | none =>
    extra leftText sep ++ indentIf broken ++ inner ++ dots ++ dedentIf broken ++
      extra rightText .glue

/-- A list without brackets. Where it is broken, all but the gap before it is indented. -/
def commaSeparated (lines : LineTable) (items : List Item) (first : Sep) : Layout :=
  match items with
  | [] => nil
  | i :: rest =>
    let (broken, _) := breaksAfter lines (lines.lastLine i.extent) rest
    gap i.extent.start first ++ indentIf broken ++ i.layout ++ further rest ++ dedentIf broken

/-- The closing brace of a block, which stands right behind the opening one if the block is empty
and on one line. -/
def closingBrace (lines : LineTable) (lbrace rbrace : Span) (isEmpty : Bool) : Layout :=
  let sep := if isEmpty && lines.line rbrace.start == lines.line lbrace.start then .glue else .line
  token rbrace "\x7d" sep

/-- Statements in braces. The clauses of a switch or select are not indented. -/
def braced (lines : LineTable) (lbrace rbrace : Span) (nested : Bool) (items : List Item) :
    Layout :=
  token lbrace "\x7b" .glue ++ indentIf nested ++ stacked items ++
    comments (some rbrace.start) .line ++ dedentIf nested ++
    closingBrace lines lbrace rbrace items.isEmpty

/-- The statements behind the colon of a clause. -/
def clauseBody (items : List Item) : Layout := indent ++ stacked items ++ dedent

/-- The members of a struct or interface: in one line, or each on its own. -/
def members (lines : LineTable) (brackets : Option Brackets) (items : List Item) : Layout :=
  match brackets with
  | none => extra "\x7b\x7d" .glue
  | some b =>
    if lines.line b.right.start == lines.line b.left.start then
      let inner := match items with
        | [] => nil
        | i :: rest =>
          gap i.extent.start .space ++ i.layout ++
            concat (rest.map fun i => extra ";" .glue ++ gap i.extent.start .space ++ i.layout)
      token b.left "\x7b" .glue ++ inner ++
        token b.right "\x7d" (if items.isEmpty then .glue else .space)
    else
      token b.left "\x7b" .space ++ indent ++ stacked items ++
        comments (some b.right.start) .line ++ dedent ++ token b.right "\x7d" .line

/-- The specs of a declaration, with the parentheses of a group. -/
def specs (lines : LineTable) (lparen rparen : Option Span) (items : List Item) : Layout :=
  match lparen, items with
  | none, [i] => gap i.extent.start .space ++ i.layout
  | _, [] =>
    let broken : Bool := match lparen, rparen with
      | some l, some r => lines.line l.start < lines.line r.start
      | _, _ => false
    optional lparen "(" .space ++ optional rparen ")" (if broken then .line else .glue)
  | _, _ =>
    let rest := match rparen with
      | some r => comments (some r.start) .line
      | none => nil
    optional lparen "(" .space ++ indent ++ stacked items ++ rest ++ dedent ++
      optional rparen ")" .line

/-! ### Tokens -/

def ident (name : Ident) (sep : Sep) : Layout := token name.span name.text sep

def literal (lit : Literal) (sep : Sep) : Layout := token lit.span lit.text sep

def importSpec (spec : ImportSpec) : Layout :=
  match spec.name with
  | some (.dot span) => token span "." .glue ++ literal spec.path .space
  | some (.name id) => ident id .glue ++ literal spec.path .space
  | none => literal spec.path .glue

/-- A type name with its package. -/
def qualified (qualifier : Option Qualifier) (name : Ident) : Layout :=
  match qualifier with
  | some q => ident q.package .glue ++ token q.dot "." .glue ++ ident name .glue
  | none => ident name .glue

/-- The keyword and arrow of a channel type. -/
def channel (dir : ChanDir) (chanPos : Span) : Layout :=
  match dir with
  | .both => token chanPos "chan" .glue
  | .send arrow => token chanPos "chan" .glue ++ token arrow "<-" .glue
  | .recv arrow => token arrow "<-" .glue ++ token chanPos "chan" .glue

/-- The separation of an operand from its unary operator: two signs do not make one token. -/
def unarySep (op : UnaryOp) (operand : Expr) : Sep :=
  match op, operand with
  | .minus, .unary .minus _ _ | .plus, .unary .plus _ _ => .space
  | _, _ => .glue

def isEmptyStmt : Stmt → Bool
  | .empty _ => true
  | _ => false

end Layout

open Layout

variable (lines : LineTable)

mutual

def Expr.layout : Expr → Layout
  | .ident name => Layout.ident name .glue
  | .literal lit => Layout.literal lit .glue
  | .func funcPos sig body =>
    token funcPos "func" .glue ++ sig.layout ++ gap body.lbrace.start .space ++ body.layout true
  | .composite type lbrace elements rbrace =>
    TypeExpr.layoutOpt type ++
      bracketed lines (some ⟨lbrace, rbrace⟩) "\x7b" "\x7d" (Expr.items elements) none .glue
  | .paren lparen inner rparen =>
    token lparen "(" .glue ++ gap inner.pos .glue ++ inner.layout ++ token rparen ")" .glue
  | .selector operand dot member =>
    operand.layout ++ token dot "." .glue ++ Layout.ident member .glue
  | .index operand lbrack indices rbrack =>
    operand.layout ++
      bracketed lines (some ⟨lbrack, rbrack⟩) "[" "]" (Expr.items indices) none .glue
  | .slice operand lbrack lo hi max full rbrack =>
    operand.layout ++ token lbrack "[" .glue ++ Expr.layoutOpt .glue lo ++ extra ":" .glue ++
      Expr.layoutOpt .glue hi ++
      (if full then extra ":" .glue ++ Expr.layoutOpt .glue max else nil) ++
      token rbrack "]" .glue
  | .assertion operand dot lparen type rparen =>
    operand.layout ++ token dot "." .glue ++ token lparen "(" .glue ++
      (match type with
        | some t => gap t.pos .glue
        | none => extra "type" .glue) ++
      TypeExpr.layoutOpt type ++ token rparen ")" .glue
  | .call fn lparen args spread rparen =>
    fn.layout ++ bracketed lines (some ⟨lparen, rparen⟩) "(" ")" (Expr.items args) spread .glue
  | .unary op opPos operand =>
    token opPos op.text .glue ++ gap operand.pos (unarySep op operand) ++ operand.layout
  | .binary left op opPos right =>
    let broken : Bool := lines.lastLine opPos < lines.line right.pos
    left.layout ++ token opPos op.text .space ++ indentIf broken ++ gap right.pos .lineOrSpace ++
      right.layout ++ dedentIf broken
  | .keyValue key colon value =>
    key.layout ++ token colon ":" .glue ++ gap value.pos .space ++ value.layout
  | .type t => t.layout

/-- An expression that may be missing, with the gap before it. -/
def Expr.layoutOpt (sep : Sep) : Option Expr → Layout
  | some e => gap e.pos sep ++ e.layout
  | none => nil

def Expr.items : List Expr → List Item
  | [] => []
  | e :: es => ⟨⟨e.pos, e.stop⟩, e.layout⟩ :: Expr.items es

def TypeExpr.layout : TypeExpr → Layout
  | .named qualifier name => qualified qualifier name
  | .generic qualifier name lbrack args rbrack =>
    qualified qualifier name ++
      bracketed lines (some ⟨lbrack, rbrack⟩) "[" "]" (TypeExpr.items args) none .glue
  | .pointer star elem => token star "*" .glue ++ gap elem.pos .glue ++ elem.layout
  | .array lbrack len rbrack elem =>
    token lbrack "[" .glue ++ gap len.pos .glue ++ len.layout ++ token rbrack "]" .glue ++
      gap elem.pos .glue ++ elem.layout
  | .countedArray lbrack dots rbrack elem =>
    token lbrack "[" .glue ++ token dots "..." .glue ++ token rbrack "]" .glue ++
      gap elem.pos .glue ++ elem.layout
  | .slice lbrack rbrack elem =>
    token lbrack "[" .glue ++ token rbrack "]" .glue ++ gap elem.pos .glue ++ elem.layout
  | .map mapPos lbrack key rbrack value =>
    token mapPos "map" .glue ++ token lbrack "[" .glue ++ gap key.pos .glue ++ key.layout ++
      token rbrack "]" .glue ++ gap value.pos .glue ++ value.layout
  | .chan dir chanPos elem => channel dir chanPos ++ gap elem.pos .space ++ elem.layout
  | .struct structPos fields =>
    token structPos "struct" .glue ++ members lines fields.brackets fields.items
  | .interface interfacePos elements =>
    token interfacePos "interface" .glue ++ members lines elements.brackets elements.items
  | .func funcPos sig =>
    (match funcPos with
      | some pos => token pos "func" .glue
      | none => nil) ++ sig.layout
  | .paren lparen inner rparen =>
    token lparen "(" .glue ++ gap inner.pos .glue ++ inner.layout ++ token rparen ")" .glue
  | .variadic dots elem => token dots "..." .glue ++ gap elem.pos .glue ++ elem.layout
  | .union terms =>
    match TypeExpr.items terms with
    | [] => nil
    | i :: rest =>
      gap i.extent.start .glue ++ i.layout ++
        concat (rest.map fun i => extra "|" .space ++ gap i.extent.start .space ++ i.layout)
  | .tilde tildePos inner => token tildePos "~" .glue ++ gap inner.pos .glue ++ inner.layout

/-- A type that may be missing. -/
def TypeExpr.layoutOpt : Option TypeExpr → Layout
  | some t => t.layout
  | none => nil

def TypeExpr.items : List TypeExpr → List Item
  | [] => []
  | t :: ts => ⟨⟨t.pos, t.stop⟩, t.layout⟩ :: TypeExpr.items ts

def Signature.layout : Signature → Layout
  | ⟨params, results⟩ =>
    bracketed lines params.brackets "(" ")" params.items none .glue ++ FieldList.results results

/-- The results of a signature. -/
def FieldList.results : Option FieldList → Layout
  | none => nil
  | some results =>
    match results.brackets, results.items with
    | some _, items => bracketed lines results.brackets "(" ")" items none .space
    | none, i :: _ => gap i.extent.start .space ++ i.layout
    | none, [] => nil

/-- Type parameters, which may be missing. -/
def FieldList.typeParams : Option FieldList → Layout
  | none => nil
  | some params => bracketed lines params.brackets "[" "]" params.items none .glue

def FieldList.items : FieldList → List Item
  | ⟨_, fields⟩ => Field.items fields

def Field.layout : Field → Layout
  | ⟨_, [name], .func none sig, _, _⟩ => Layout.ident name .glue ++ sig.layout
  | ⟨_, names, type, tag, _⟩ =>
    Layout.names names ++ (if names.isEmpty then nil else gap type.pos .space) ++ type.layout ++
      (match tag with
        | some tag => Layout.literal tag .space
        | none => nil)

def Field.items : List Field → List Item
  | [] => []
  | f :: fs => ⟨⟨f.pos, f.stop⟩, f.layout⟩ :: Field.items fs

def Block.layout (nested : Bool) : Block → Layout
  | ⟨lbrace, stmts, rbrace⟩ => braced lines lbrace rbrace nested (Stmt.items stmts)

def Stmt.layout : Stmt → Layout
  | .decl d => d.layout
  | .empty _ => nil
  | .labeled label colon stmt =>
    outdent (Layout.ident label .glue ++ token colon ":" .glue) ++
      (if isEmptyStmt stmt then nil else gap stmt.pos .line) ++ stmt.layout
  | .expr e => e.layout
  | .send chan arrow value =>
    chan.layout ++ token arrow "<-" .space ++ gap value.pos .space ++ value.layout
  | .incDec operand op opPos => operand.layout ++ token opPos op.text .glue
  | .assign lhs op opPos rhs =>
    commaSeparated lines (Expr.items lhs) .glue ++ token opPos op.text .space ++
      commaSeparated lines (Expr.items rhs) .space
  | .go goPos call => token goPos "go" .glue ++ gap call.pos .space ++ call.layout
  | .defer deferPos call => token deferPos "defer" .glue ++ gap call.pos .space ++ call.layout
  | .returns returnPos results =>
    token returnPos "return" .glue ++ commaSeparated lines (Expr.items results) .space
  | .branch kind kwPos label =>
    token kwPos kind.keyword.spelling .glue ++
      (match label with
        | some label => Layout.ident label .space
        | none => nil)
  | .block b => b.layout true
  | .ifElse ifPos init cond body orElse =>
    token ifPos "if" .glue ++ Stmt.header init ++ gap cond.pos .space ++ cond.layout ++
      gap body.lbrace.start .space ++ body.layout true ++
      (if orElse.isSome then extra "else" .space else nil) ++ Stmt.layoutOpt orElse
  | .caseClause casePos values colon body =>
    token casePos (if values.isEmpty then "default" else "case") .glue ++
      commaSeparated lines (Expr.items values) .space ++ token colon ":" .glue ++
      clauseBody (Stmt.items body)
  | .switch switchPos init tag body =>
    token switchPos "switch" .glue ++ Stmt.header init ++ Expr.layoutOpt .space tag ++
      gap body.lbrace.start .space ++ body.layout false
  | .typeSwitch switchPos init guarded body =>
    token switchPos "switch" .glue ++ Stmt.header init ++ gap guarded.pos .space ++
      guarded.layout ++ gap body.lbrace.start .space ++ body.layout false
  | .commClause casePos comm colon body =>
    token casePos (if comm.isNone then "default" else "case") .glue ++ Stmt.layoutOpt comm ++
      token colon ":" .glue ++ clauseBody (Stmt.items body)
  | .select selectPos body =>
    token selectPos "select" .glue ++ gap body.lbrace.start .space ++ body.layout false
  | .forLoop forPos init cond post body =>
    token forPos "for" .glue ++
      (if init.isNone && post.isNone then Expr.layoutOpt .space cond
      else
        Stmt.layoutOpt init ++ extra ";" (if init.isSome then .glue else .space) ++
          Expr.layoutOpt .space cond ++ extra ";" (if cond.isSome then .glue else .space) ++
          Stmt.layoutOpt post) ++
      gap body.lbrace.start .space ++ body.layout true
  | .range forPos key value op rangePos operand body =>
    token forPos "for" .glue ++
      (if key.isSome then
        Expr.layoutOpt .space key ++ (if value.isSome then extra "," .glue else nil) ++
          Expr.layoutOpt .space value ++
          (match op with
            | some (op, opPos) => token opPos op.text .space
            | none => nil)
      else nil) ++
      token rangePos "range" .space ++ gap operand.pos .space ++ operand.layout ++
      gap body.lbrace.start .space ++ body.layout true

/-- A statement that may be missing, with the gap before it. -/
def Stmt.layoutOpt : Option Stmt → Layout
  | some s => gap s.pos .space ++ s.layout
  | none => nil

/-- The initial statement of a header, with its semicolon. -/
def Stmt.header : Option Stmt → Layout
  | some s => gap s.pos .space ++ s.layout ++ extra ";" .glue
  | none => nil

def Stmt.items : List Stmt → List Item
  | [] => []
  | s :: ss => ⟨⟨s.pos, s.stop⟩, s.layout⟩ :: Stmt.items ss

def GenDecl.layout : GenDecl → Layout
  | ⟨_, kwPos, kind, lparen, specs, rparen⟩ =>
    token kwPos kind.keyword.spelling .glue ++ Layout.specs lines lparen rparen (Spec.items specs)

def Spec.layout : Spec → Layout
  | .importSpec spec => Layout.importSpec spec
  | .valueSpec _ names type assign values _ =>
    Layout.names names ++
      (match type with
        | some t => gap t.pos .space
        | none => nil) ++
      TypeExpr.layoutOpt type ++
      (if values.isEmpty then nil
      else optional assign "=" .space ++ commaSeparated lines (Expr.items values) .space)
  | .typeSpec _ name typeParams assign type _ =>
    Layout.ident name .glue ++ FieldList.typeParams typeParams ++
      (match assign with
        | some span => token span "=" .space
        | none => nil) ++
      gap type.pos .space ++ type.layout

def Spec.items : List Spec → List Item
  | [] => []
  | s :: ss => ⟨⟨s.pos, s.stop⟩, s.layout⟩ :: Spec.items ss

end

def FuncDecl.layout (f : FuncDecl) : Layout :=
  let receiver := match f.receiver with
    | some fields => bracketed lines fields.brackets "(" ")" (fields.items lines) none .space
    | none => nil
  let body := match f.body with
    | some body => gap body.lbrace.start .space ++ body.layout lines true
    | none => nil
  token f.funcPos "func" .glue ++ receiver ++ Layout.ident f.name .space ++
    FieldList.typeParams lines f.typeParams ++ f.sig.layout lines ++ body

def Decl.layout : Decl → Layout
  | .gen d => d.layout lines
  | .func f => f.layout lines

/-- The kind of a declaration, and none for a function. -/
def Decl.kind? : Decl → Option DeclKind
  | .gen d => some d.kind
  | .func _ => none

def Decl.doc : Decl → Link
  | .gen d => d.doc
  | .func f => f.doc

/-- The declarations of a file behind one of the given kind. A blank line divides kinds and
precedes a doc comment. -/
def Decl.layouts : (prev : Option (Option DeclKind)) → List Decl → Layout
  | _, [] => nil
  | prev, d :: ds =>
    let min := if prev != some d.kind? || d.doc.isSome then 2 else 1
    gap d.pos (.breaks min false) ++ d.layout lines ++ Decl.layouts (some d.kind?) ds

namespace SourceFile

/-- The layout of a file, with all its comments. -/
def layout (f : SourceFile) : Layout :=
  token f.packagePos "package" .glue ++ Layout.ident f.name .space ++
    Decl.layouts f.lines none f.decls ++ Layout.comments none .line

/-- The comments of a file in source order. -/
def allComments (f : SourceFile) : List Comment := f.comments.flatMap (·.toList)

def pieces (f : SourceFile) : List Piece := f.layout.pieces f.lines f.allComments

/-- Prints a file, with a newline behind it. -/
def emit {ε : Type} [Emitter ε] (out : ε) (f : SourceFile) : ε :=
  let p := Printer.print f.lines f.layout (.start out f.allComments)
  if p.started then Emitter.emit p.out "\n" else p.out

/-- The printed file. -/
def print (f : SourceFile) : String := f.emit ""

end SourceFile

end GoLayout
