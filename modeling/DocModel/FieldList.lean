import DocModel.Field

/-!
The fields of a template as a whole: all field directives compiled, with their options and with
their places.
-/

namespace DocModel.Field

/-- The field with the options that are for it. Without any it keeps those it has. -/
def withOptions (options : List FieldOption) (field : Field) : Field :=
  match options.filter (·.fieldName == field.name) with
  | [] => field
  | matching => { field with options := some matching }

/-- Gives every field the options that are for it. -/
def applyOptions (options : List FieldOption) (fields : List Field) : List Field :=
  fields.map (withOptions options)

/-- Fields with their places, counted from `start`. -/
def placedFrom (start : Nat) : List Field → List Field
  | [] => []
  | field :: rest => { field with absoluteOrder := some start } :: placedFrom (start + 1) rest

/-- Gives every field its place in the list. -/
def applyAbsoluteOrder (fields : List Field) : List Field :=
  placedFrom 0 fields

/-- What a directive declares. -/
inductive Declared where
  | field (f : Field)
  | option (o : FieldOption)
  | nothing

/-- Compiles a directive by its name. -/
def declare (d : Directive) : Except ModelError Declared :=
  if d.name = fieldDirective ∨ d.name = groupDirective then (compile d).map .field
  else if d.name = optionDirective then (compileOption d).map .option
  else .ok .nothing

def Declared.field? : Declared → Option Field
  | .field f => some f
  | _ => none

def Declared.option? : Declared → Option FieldOption
  | .option o => some o
  | _ => none

/-- The fields and options that some directives declare, in order. The first directive that does not
compile is the failure of all. -/
def compileAll (directives : List Directive) :
    Except ModelError (List Field × List FieldOption) := do
  let declared ← directives.mapM declare
  let options := declared.filterMap Declared.option?
  return (applyAbsoluteOrder (applyOptions options (declared.filterMap Declared.field?)), options)

end DocModel.Field
