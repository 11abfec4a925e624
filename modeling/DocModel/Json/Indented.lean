import DocModel.Json.Writing

/-!
The indented text of a data value: every item and every entry on a line of its own, two blanks
deeper than the brackets around it. Empty arrays and objects stay on one line.
-/

namespace DocModel.Json

/-- The blanks at the start of a line at some depth. -/
def indent (depth : Nat) : String := String.ofList (List.replicate (2 * depth) ' ')

/-- Lines between two brackets, each at one depth more than the brackets. -/
def block (opening closing : String) (depth : Nat) (lines : List String) : String :=
  match lines with
  | [] => opening ++ closing
  | lines =>
    opening ++ "\n" ++ ",\n".intercalate (lines.map (indent (depth + 1) ++ ·)) ++ "\n" ++
      indent depth ++ closing

mutual

/-- The indented text of a value whose brackets stand at some depth. -/
def writeAt (depth : Nat) : Json → String
  | arr items => block "[" "]" depth (itemsAt (depth + 1) items)
  | obj entries => block "\x7b" "\x7d" depth (entriesAt (depth + 1) entries)
  | value => value.write

def itemsAt (depth : Nat) : List Json → List String
  | [] => []
  | item :: rest => writeAt depth item :: itemsAt depth rest

def entriesAt (depth : Nat) : List (String × Json) → List String
  | [] => []
  | (key, value) :: rest => (quote key ++ ": " ++ writeAt depth value) :: entriesAt depth rest

end

/-- The indented text of a value. -/
def writeIndented (value : Json) : String := writeAt 0 value

end DocModel.Json
