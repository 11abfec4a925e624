/-!
The ways in which building a data model can fail, with their messages. What is wrong with data is no
failure; see `DocModel.Validation`.
-/

namespace DocModel

/-- A stage that stops at the depth bound. -/
inductive Stage where
  | trie
  | metadata
  | validation
deriving DecidableEq

def Stage.name : Stage → String
  | trie => "trie"
  | metadata => "metadata"
  | validation => "validation"

/-- Why a data model could not be built. -/
inductive ModelError where
  /-- The template does not follow the grammar of templates. -/
  | template
  /-- The text of a directive is not a name followed by parameters. -/
  | malformedDirective (directive : String)
  /-- A parameter is neither a quoted value, nor a named value, nor a flag. -/
  | badToken (token directive : String)
  /-- A field directive does not start with a name. -/
  | missingFieldName (directive : String)
  /-- An option directive does not start with a name. -/
  | missingOptionName
  /-- An option directive does not say for which field it is. -/
  | missingOptionTarget (option : String)
  /-- Something is nested more deeply than the depth bound allows. -/
  | potentialLoop (stage : Stage) (maxDepth : Nat)
deriving DecidableEq

namespace ModelError

/-- Whether raising the depth bound would help. -/
def isStructuralLimit : ModelError → Bool
  | potentialLoop .. => true
  | _ => false

/-- Whether a directive is at fault. -/
def isSyntax : ModelError → Bool
  | malformedDirective _ | badToken .. | missingFieldName _ | missingOptionName |
    missingOptionTarget _ => true
  | template | potentialLoop .. => false

def message : ModelError → String
  | template => "failed to parse template"
  | malformedDirective directive => s!"malformed directive: '{directive}'"
  | badToken token directive => s!"bad directive token '{token}' in '{directive}'"
  | missingFieldName directive =>
    s!"unable to compile field: the name param is not set in '{directive}'"
  | missingOptionName => "unable to compile field option: the name param is not set"
  | missingOptionTarget option =>
    s!"unable to compile field option '{option}': the 'for' param is not set"
  | potentialLoop stage maxDepth =>
    s!"potential loop while building {stage.name}: the model is deeper than {maxDepth} levels"

end ModelError

end DocModel
