import DocModel.DocumentError
import DocModel.HelperModule.Condition
import DocModel.HelperModule.Put

/-!
Registries of helper modules. A registry holds modules in the order in which their names were first
registered; registering a name again replaces the module in its place.
-/

namespace DocModel

/-- The helper modules that templates can use. -/
structure Registry where
  modules : List HelperModule

namespace Registry

def empty : Registry := ⟨[]⟩

/-- Puts a module into the place of the one with its name, or else at the end. -/
def place (m : HelperModule) : List HelperModule → List HelperModule
  | [] => [m]
  | other :: rest => if other.name = m.name then m :: rest else other :: place m rest

/-- The registry with one more module. -/
def register (registry : Registry) (m : HelperModule) : Registry :=
  ⟨place m registry.modules⟩

/-- The registry of the modules that are always there. -/
def builtin : Registry :=
  (empty.register (Put.helperModule Put.defaultColorClass)).register Condition.helperModule

/-- The module with a name. -/
def get? (registry : Registry) (name : String) : Option HelperModule :=
  registry.modules.find? (·.name == name)

/-- The module with a name, which has to be registered. -/
def resolve (registry : Registry) (name : String) : Except DocumentError HelperModule :=
  match registry.get? name with
  | some m => .ok m
  | none => .error (.unknownModule name)

def names (registry : Registry) : List String :=
  registry.modules.map (·.name)

/-- The names of all helpers of some modules, each once. -/
def helperNames (registry : Registry) (enabled : List String) :
    Except DocumentError (List String) := do
  let modules ← enabled.mapM registry.resolve
  return (modules.flatMap (·.helpers)).eraseDups

/-- The engine with the helpers of some modules, of which later ones come before earlier ones. -/
def engine (registry : Registry) (enabled : List String) : Except DocumentError Engine := do
  let modules ← enabled.mapM registry.resolve
  return modules.foldl (fun engine m => m.addTo engine) Engine.base

end Registry

end DocModel
