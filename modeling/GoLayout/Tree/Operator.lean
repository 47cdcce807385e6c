import GoLayout.Token

/-!
Operators and the keywords that choose between forms of a node, each with the mark or keyword that
spells it.
-/

namespace GoLayout

inductive UnaryOp where
  | plus | minus | not | xor | deref | addr | recv | tilde
deriving DecidableEq, Repr

namespace UnaryOp

def mark : UnaryOp → Mark
  | .plus => .plus
  | .minus => .minus
  | .not => .bang
  | .xor => .caret
  | .deref => .star
  | .addr => .amp
  | .recv => .arrow
  | .tilde => .tilde

def ofMark? : Mark → Option UnaryOp
  | .plus => some .plus
  | .minus => some .minus
  | .bang => some .not
  | .caret => some .xor
  | .star => some .deref
  | .amp => some .addr
  | .arrow => some .recv
  | .tilde => some .tilde
  | _ => none

def text (op : UnaryOp) : String := op.mark.spelling

end UnaryOp

inductive BinaryOp where
  | add | sub | mul | div | mod | bitAnd | bitOr | xor | shl | shr | andNot | logAnd | logOr
  | eq | ne | lt | le | gt | ge
deriving DecidableEq, Repr

namespace BinaryOp

def mark : BinaryOp → Mark
  | .add => .plus
  | .sub => .minus
  | .mul => .star
  | .div => .slash
  | .mod => .percent
  | .bitAnd => .amp
  | .bitOr => .pipe
  | .xor => .caret
  | .shl => .shl
  | .shr => .shr
  | .andNot => .andNot
  | .logAnd => .logAnd
  | .logOr => .logOr
  | .eq => .equal
  | .ne => .notEqual
  | .lt => .less
  | .le => .atMost
  | .gt => .greater
  | .ge => .atLeast

def ofMark? : Mark → Option BinaryOp
  | .plus => some .add
  | .minus => some .sub
  | .star => some .mul
  | .slash => some .div
  | .percent => some .mod
  | .amp => some .bitAnd
  | .pipe => some .bitOr
  | .caret => some .xor
  | .shl => some .shl
  | .shr => some .shr
  | .andNot => some .andNot
  | .logAnd => some .logAnd
  | .logOr => some .logOr
  | .equal => some .eq
  | .notEqual => some .ne
  | .less => some .lt
  | .atMost => some .le
  | .greater => some .gt
  | .atLeast => some .ge
  | _ => none

def text (op : BinaryOp) : String := op.mark.spelling

/-- From `1`, which binds loosest, to `5`. -/
def precedence : BinaryOp → Nat
  | .logOr => 1
  | .logAnd => 2
  | .eq | .ne | .lt | .le | .gt | .ge => 3
  | .add | .sub | .bitOr | .xor => 4
  | .mul | .div | .mod | .shl | .shr | .bitAnd | .andNot => 5

end BinaryOp

inductive AssignOp where
  | assign | define | addAssign | subAssign | mulAssign | divAssign | modAssign | andAssign
  | orAssign | xorAssign | shlAssign | shrAssign | andNotAssign
deriving DecidableEq, Repr

namespace AssignOp

def mark : AssignOp → Mark
  | .assign => .assign
  | .define => .define
  | .addAssign => .addAssign
  | .subAssign => .subAssign
  | .mulAssign => .mulAssign
  | .divAssign => .divAssign
  | .modAssign => .modAssign
  | .andAssign => .andAssign
  | .orAssign => .orAssign
  | .xorAssign => .xorAssign
  | .shlAssign => .shlAssign
  | .shrAssign => .shrAssign
  | .andNotAssign => .andNotAssign

def ofMark? : Mark → Option AssignOp
  | .assign => some .assign
  | .define => some .define
  | .addAssign => some .addAssign
  | .subAssign => some .subAssign
  | .mulAssign => some .mulAssign
  | .divAssign => some .divAssign
  | .modAssign => some .modAssign
  | .andAssign => some .andAssign
  | .orAssign => some .orAssign
  | .xorAssign => some .xorAssign
  | .shlAssign => some .shlAssign
  | .shrAssign => some .shrAssign
  | .andNotAssign => some .andNotAssign
  | _ => none

def text (op : AssignOp) : String := op.mark.spelling

end AssignOp

inductive IncDecOp where
  | inc | dec
deriving DecidableEq, Repr

def IncDecOp.text : IncDecOp → String
  | .inc => "++"
  | .dec => "--"

inductive BranchKind where
  | breaks | continues | goto | fallthrough
deriving DecidableEq, Repr

def BranchKind.keyword : BranchKind → Keyword
  | .breaks => .kwBreak
  | .continues => .kwContinue
  | .goto => .kwGoto
  | .fallthrough => .kwFallthrough

/-- What a declaration declares. -/
inductive DeclKind where
  | imports | consts | types | vars
deriving DecidableEq, Repr

def DeclKind.keyword : DeclKind → Keyword
  | .imports => .kwImport
  | .consts => .kwConst
  | .types => .kwType
  | .vars => .kwVar

end GoLayout
