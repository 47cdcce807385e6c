import GoLayout.Tree.Extent
import GoLayout.Tree.Unify

/-!
Neighbouring parameters of one type share it: `a int, b int` becomes `a, b int`. Which fields are
merged is told from their lines, and the merging itself may come later, when the types of the
fields have been changed.
-/

namespace GoLayout

/-- Whether a type is a single name. -/
def TypeExpr.isPlainName : TypeExpr → Bool
  | .named none _ => true
  | _ => false

namespace Field

/-- Whether a field has names and a type only. -/
def isBare (f : Field) : Bool :=
  f.doc.isNone && f.comment.isNone && !f.names.isEmpty && f.tag.isNone

/-- Whether two fields on one line have the same plain name for a type. -/
def shares (lines : LineTable) (a b : Field) : Bool :=
  a.isBare && b.isBare && lines.line a.pos == lines.line b.pos && a.type.isPlainName &&
    a.type.alike b.type

/-- For each field behind `last`, whether it shares with the last one that is kept. -/
def sharing (lines : LineTable) : (last : Field) → List Field → List Bool
  | _, [] => []
  | last, f :: rest =>
    if last.shares lines f then true :: sharing lines last rest
    else false :: sharing lines f rest

/-- Moves the names of the marked fields to the field kept before them. -/
def mergeMarked : (last : Field) → List Field → List Bool → List Field
  | last, f :: rest, true :: marks =>
    mergeMarked { last with names := last.names ++ f.names } rest marks
  | last, f :: rest, false :: marks => last :: mergeMarked f rest marks
  | last, rest, _ => last :: rest

end Field

namespace FieldList

/-- Which fields behind the first one are merged. -/
def sharing (lines : LineTable) (l : FieldList) : List Bool :=
  match l.fields with
  | [] => []
  | f :: rest => Field.sharing lines f rest

/-- Merges the marked fields. -/
def mergeMarked (marks : List Bool) (l : FieldList) : FieldList :=
  match l.fields with
  | [] => l
  | f :: rest => { l with fields := Field.mergeMarked f rest marks }

/-- Merges the fields that share a type on a line. -/
def merge (lines : LineTable) (l : FieldList) : FieldList := l.mergeMarked (l.sharing lines)

end FieldList

end GoLayout
