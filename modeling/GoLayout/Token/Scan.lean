import GoLayout.Diagnostic

/-!
The tokens, comments and lexical faults of a source. A statement may end without a semicolon at
the end of its line: an empty semicolon token then follows the token that ends it.
-/

namespace GoLayout

/-- What a source consists of, each part in source order. -/
structure Scan where
  tokens : List Token
  comments : List Comment
  faults : List Diagnostic
deriving Repr

namespace Scan

/-- The semicolon that stands for the end of a line. -/
def autoSemi (pos : Nat) : Token := ⟨.mark .semi, .point pos⟩

/-- Whether a lexeme ends the line that it starts on. -/
def endsLine : Lexeme → Bool
  | .newline | .comment .line _ => true
  | .comment .block text => text.toList.any Lexeme.isLineEnd
  | _ => false

/-- The tokens among the lexemes of a text of `size` bytes. `open?` tells whether the last token
before them ends a statement that no semicolon has ended. -/
def tokensOf (size : Nat) : (open? : Bool) → List (Lexeme × Span) → List Token
  | open?, [] => if open? then [autoSemi size] else []
  | open?, (lexeme, span) :: rest =>
    match lexeme with
    | .token kind => ⟨kind, span⟩ :: tokensOf size kind.endsStatement rest
    | .stray _ | .openComment _ => ⟨.invalid, span⟩ :: tokensOf size false rest
    | _ =>
      if open? && endsLine lexeme then autoSemi span.start :: tokensOf size false rest
      else tokensOf size open? rest

def commentOf? : Lexeme × Span → Option Comment
  | (.comment kind text, span) => some ⟨kind, span, text⟩
  | (.openComment text, span) => some ⟨.block, span, text⟩
  | _ => none

def faultOf? : Lexeme × Span → Option Diagnostic
  | (.stray fault, span) => some ⟨.lexical fault, span⟩
  | (.openComment _, span) => some ⟨.lexical .unterminatedComment, span⟩
  | _ => none

def ofSource (src : String) : Scan :=
  let lexemes := Lexeme.all src.toList
  { tokens := tokensOf src.utf8ByteSize false lexemes
    comments := lexemes.filterMap commentOf?
    faults := lexemes.filterMap faultOf? }

end Scan

end GoLayout
