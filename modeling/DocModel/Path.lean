import DocModel.Text.Blank
import DocModel.Text.Split
import DocModel.Text.Strip

/-!
Data paths: names joined by dots, which may carry subscripts. A clean path has no subscripts, no
numeric segments and no blanks around its segments.
-/

namespace DocModel.Path

/-- A path without its subscripts. A subscript goes from an opening bracket to the first closing
one; an opening bracket that is never closed stays. -/
def stripSubscripts (path : List Char) : List Char :=
  Text.strip '[' ']' path

/-- The segments of a path, at least one. -/
def segments (path : String) : List String :=
  (Text.split '.' path.toList).map String.ofList

/-- The path with the given segments. -/
def ofSegments (segments : List String) : String :=
  String.ofList (Text.join '.' (segments.map String.toList))

/-- Whether a trimmed segment is a name: not empty and not a number. -/
def isName (segment : List Char) : Bool :=
  !segment.isEmpty && !segment.all Char.isDigit

/-- The named segments of a path, trimmed. -/
def names (path : String) : List (List Char) :=
  ((Text.split '.' (stripSubscripts path.toList)).map Text.trim).filter isName

/-- A path without index notation: `items[0].x`, `items.[0].x` and `items.0.x` become `items.x`. -/
def clean (path : String) : String :=
  String.ofList (Text.join '.' (names path))

/-- The first segment of a path. -/
def head (path : String) : String :=
  String.ofList (path.toList.takeWhile (· ≠ '.'))

/-- Words that open blocks in other template languages. -/
def keywords : List String := ["if", "unless", "each", "with"]

/-- Whether a path refers to the engine rather than to data. -/
def isReserved (path : String) : Bool :=
  let first := path.toList.head?
  first == some '.' || first == some '/' || first == some '@' || head path == "this" ||
    keywords.contains path

end DocModel.Path
