/-!
What can go wrong while a template is rendered. Only an unknown comparison explains itself; all
other faults show the name of the template and the routine that was being rendered.
-/

namespace DocModel

/-- Why a template could not be rendered. -/
inductive Fault where
  /-- The data are not an object. -/
  | notAnObject
  /-- A name that is bound nowhere. -/
  | unknownName (path : String)
  /-- A filter that is not registered. -/
  | unknownFilter (name : String)
  /-- A function that is not registered. -/
  | unknownFunction (name : String)
  /-- A test that does not exist. -/
  | unknownTest (name : String)
  /-- A routine that the template does not define. -/
  | unknownRoutine (name : String)
  /-- An argument that has to be given. -/
  | missingArgument (name : String)
  /-- A value of a kind for which an operation has no meaning. -/
  | wrongKind (operation : String)
  /-- An integer result that is out of range, or a remainder by zero. -/
  | outOfRange (operation : String)
  /-- A tag outside of the construct that it belongs to. -/
  | misplaced (tag : String)
  /-- A template to include that does not exist. -/
  | unknownTemplate (names : List String)
  /-- Routines, blocks or inclusions that are nested too deeply. -/
  | tooDeep
  /-- A comparison with an operation that does not exist, as the message shows it. -/
  | unknownOperation (shown : String)

/-- The explanation of a fault, for those that have one. -/
def Fault.cause? : Fault → Option String
  | unknownOperation shown => some s!"Condition: Unknown operation: {shown}"
  | _ => none

/-- A fault, with the routine in which rendering came to its end, if it did so in one. -/
structure RenderError where
  fault : Fault
  routine : Option (String × String)

namespace RenderError

/-- The name under which the template of a document is registered. -/
def templateName : String := "document.html"

/-- The part of the message that names the routine. -/
def place : Option (String × String) → String
  | some (space, name) => ": error while rendering macro `" ++ space ++ "::" ++ name ++ "`"
  | none => ""

def message (error : RenderError) : String :=
  match error.fault with
  | .notAnObject => "Creating a Context from a Value/Serialize requires it being a JSON object"
  | _ => "Failed to render '" ++ templateName ++ "'" ++ place error.routine

end RenderError

end DocModel
