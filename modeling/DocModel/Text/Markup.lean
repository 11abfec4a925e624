/-!
Escaping text for markup. Six characters are replaced by entities, one by one, and all others stay.
-/

namespace DocModel.Text

/-- The entity that stands for a character, if it needs one. -/
def entity? : Char → Option String
  | '&' => some "&amp;"
  | '<' => some "&lt;"
  | '>' => some "&gt;"
  | '"' => some "&quot;"
  | '\'' => some "&#x27;"
  | '/' => some "&#x2F;"
  | _ => none

/-- A character as markup. -/
def escapedChar (c : Char) : List Char :=
  match entity? c with
  | some entity => entity.toList
  | none => [c]

/-- A text as markup. -/
def escapeMarkup (s : String) : String :=
  String.ofList (s.toList.flatMap escapedChar)

end DocModel.Text
