import DocModel.Template.Engine

/-!
Helper modules: bundles of filters and functions that a template can use under their names. The
names of the helpers also stand for themselves in a template, so that a data model leaves them out.
-/

namespace DocModel

/-- A bundle of filters and functions. -/
structure HelperModule where
  name : String
  /-- The names of the helpers, in the order in which the module lists them. -/
  helpers : List String
  filters : List (String × Filter)
  functions : List (String × Function)

namespace HelperModule

/-- The name of a helper: that of the module, and the suffix of the helper if it has one. -/
def helperName (moduleName : String) : Option String → String
  | some suffix => moduleName ++ "_" ++ suffix
  | none => moduleName

/-- A module with names only. -/
def ofNames (name : String) (helpers : List String) : HelperModule := ⟨name, helpers, [], []⟩

/-- The engine with the filters and functions of a module. -/
def addTo (m : HelperModule) (engine : Engine) : Engine :=
  engine.extend m.filters m.functions

end HelperModule

end DocModel
