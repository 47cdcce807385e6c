import GoLayout.Token.Lexeme

/-!
What can be wrong with a source, and where. A failed reading holds every lexical fault, or the one
place at which the grammar could not go on.
-/

namespace GoLayout

/-- What the grammar asks for at some place. -/
inductive Expected where
  | mark (m : Mark)
  | keyword (k : Keyword)
  | identifier | stringLiteral | terminator | declaration | listOpener | listCloser | member | type
  | expression | selector | statement | condition | boolean | loopCondition | elseBranch | clause
  | endOfExpression
deriving DecidableEq, Repr

def Expected.text : Expected → String
  | .mark m => "'" ++ m.spelling ++ "'"
  | .keyword k => "'" ++ k.spelling ++ "'"
  | .identifier => "identifier"
  | .stringLiteral => "string literal"
  | .terminator => "';' or newline"
  | .declaration => "declaration"
  | .listOpener => "'(' or '['"
  | .listCloser => "')' or ']'"
  | .member => "field name or embedded type"
  | .type => "type"
  | .expression => "expression"
  | .selector => "selector or type assertion"
  | .statement => "statement"
  | .condition => "condition"
  | .boolean => "boolean expression"
  | .loopCondition => "for loop condition"
  | .elseBranch => "'if' or '\x7b' after 'else'"
  | .clause => "'case' or 'default'"
  | .endOfExpression => "end of expression"

inductive SyntaxFault where
  | unexpected (wanted : Expected) (found : TokenKind)
  | mixedParameters
  | missingParameterType
  | switchOperand
  /-- The reading was cut off before the source ended. -/
  | cutOff
deriving DecidableEq, Repr

def SyntaxFault.message : SyntaxFault → String
  | .unexpected wanted found => s!"expected {wanted.text}, found {found.found}"
  | .mixedParameters => "mixed named and unnamed parameters"
  | .missingParameterType => "missing parameter type"
  | .switchOperand => "switch expression must be an expression"
  | .cutOff => "reading was cut off"

inductive Fault where
  | lexical (f : LexFault)
  | grammatical (f : SyntaxFault)
deriving DecidableEq, Repr

def Fault.message : Fault → String
  | .lexical f => f.message
  | .grammatical f => f.message

structure Diagnostic where
  fault : Fault
  span : Span
deriving DecidableEq, Repr

def Diagnostic.text (d : Diagnostic) : String :=
  s!"{d.span.start}..{d.span.stop}: {d.fault.message}"

/-- Why a source could not be read. -/
structure ParseFailure where
  first : Diagnostic
  rest : List Diagnostic
deriving DecidableEq, Repr

namespace ParseFailure

def toList (e : ParseFailure) : List Diagnostic := e.first :: e.rest

def message (e : ParseFailure) : String :=
  "parse failed: " ++ e.first.text ++
    if e.rest.isEmpty then "" else s!" (and {e.rest.length} more)"

end ParseFailure

end GoLayout
