import DocModel.Json.Value
import DocModel.Template.Fault
import DocModel.Text.Upper

/-!
The filters and functions that a template can call. An engine knows them by their names; every
engine has the filter `upper`, and helper modules add theirs.
-/

namespace DocModel

/-- A filter: what it makes of a value and of its named arguments, and whether the result is markup
already. -/
structure Filter where
  apply : Json → Entries Json → Except Fault Json
  yieldsMarkup : Bool

/-- A function of named arguments. -/
abbrev Function := Entries Json → Except Fault Json

/-- The filters and functions by name. -/
structure Engine where
  filters : Entries Filter
  functions : Entries Function

namespace Engine

/-- The filter that turns a text into upper case. -/
def upperFilter : Filter where
  apply
    | .str s, _ => .ok (.str (Text.upper s))
    | _, _ => .error (.wrongKind "upper")
  yieldsMarkup := false

/-- The engine without any helper module. -/
def base : Engine where
  filters := Entries.ofList [("upper", upperFilter)]
  functions := []

/-- The engine with more filters and functions, which take the place of earlier ones. -/
def extend (engine : Engine) (filters : List (String × Filter))
    (functions : List (String × Function)) : Engine where
  filters := engine.filters.overlay filters
  functions := engine.functions.overlay functions

def filter? (engine : Engine) (name : String) : Except Fault Filter :=
  match engine.filters.get? name with
  | some filter => .ok filter
  | none => .error (.unknownFilter name)

def function? (engine : Engine) (name : String) : Except Fault Function :=
  match engine.functions.get? name with
  | some function => .ok function
  | none => .error (.unknownFunction name)

/-- Calls a filter by its name. -/
def applyFilter (engine : Engine) (name : String) (value : Json) (args : Entries Json) :
    Except Fault Json := do
  let filter ← engine.filter? name
  filter.apply value args

/-- Calls a function by its name. -/
def callFunction (engine : Engine) (name : String) (args : Entries Json) : Except Fault Json := do
  let function ← engine.function? name
  function args

end Engine

end DocModel
