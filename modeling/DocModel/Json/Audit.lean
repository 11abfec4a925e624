import DocModel.Json.Writing

/-!
Data values as messages show them.
-/

namespace DocModel.Json

/-- How a message shows a value: text between single quotes, other data in the compact form, and
what is missing as `undefined`. -/
def audit : Option Json → String
  | none => "undefined"
  | some (str s) => "'" ++ s ++ "'"
  | some value => value.write

/-- The count of characters of a value as text. -/
def textLength : Json → Nat
  | str s => s.length
  | value => value.write.length

/-- Whether a value was given: nothing, null and the empty text do not count as given. -/
def isPresent : Option Json → Bool
  | none | some null => false
  | some (str s) => s ≠ ""
  | some _ => true

end DocModel.Json
