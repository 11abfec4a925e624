import DocModel.Error
import DocModel.Template.Fault

/-!
The ways in which work with a document can fail.
-/

namespace DocModel

/-- Why a file could not be read as text. -/
inductive FileFault where
  | notFound
  | invalidData
deriving DecidableEq

def FileFault.name : FileFault → String
  | notFound => "NotFound"
  | invalidData => "InvalidData"

/-- Why an operation on a document failed. -/
inductive DocumentError where
  | model (error : ModelError)
  | render (error : RenderError)
  | unknownModule (name : String)
  | invalidSetting (directive value : String)
  | file (name : String) (fault : FileFault)
  /-- The configuration is not written in its format, or a value has the wrong type. -/
  | configParse
  /-- Values of the configuration break a rule, as `field: rule`. -/
  | configInvalid (fields : List String)

namespace DocumentError

/-- Whether raising the depth bound would help. -/
def isStructuralLimit : DocumentError → Bool
  | model error => error.isStructuralLimit
  | _ => false

def message : DocumentError → String
  | model error => s!"model error: {error.message}"
  | render error => s!"render error: {error.message}"
  | unknownModule name => s!"unknown helper module: '{name}'"
  | invalidSetting directive value => s!"invalid value for @{directive}: '{value}'"
  | file name fault => s!"failed to read {name}: {fault.name}"
  | configParse => "failed to parse config"
  | configInvalid fields => s!"invalid config: {fields}"

end DocumentError

end DocModel
