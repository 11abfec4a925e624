import DocModel.Json.Audit
import DocModel.Metadata

/-!
Checking data against a metadata model. What is wrong with the data comes back as a list, in the
order of the model; only a model that is too deep makes the check itself fail.
-/

namespace DocModel

/-- The kinds of fault that data can have. -/
inductive ValidationCode where
  | required
  | lessThanRange
  | greaterThanRange
  | shorterThanRange
  | longerThanRange
deriving DecidableEq

def ValidationCode.name : ValidationCode → String
  | required => "REQUIRED"
  | lessThanRange => "LESS_THAN_RANGE"
  | greaterThanRange => "GREATER_THAN_RANGE"
  | shorterThanRange => "SHORTER_THAN_RANGE"
  | longerThanRange => "LONGER_THAN_RANGE"

/-- A fault of the data at one path. -/
structure ValidationError where
  code : ValidationCode
  fieldName : String
  message : String
deriving DecidableEq

namespace Validation

/-- A limit that a value does not keep: the kind of fault, and the limit as messages show it. -/
structure Breach where
  code : ValidationCode
  limit : String
deriving DecidableEq

/-- A value as a number: a number, or a text that writes one. -/
def numberOf? : Json → Option Double
  | .str s => Double.read? (Text.trim s.toList)
  | value => value.number?

/-- A value as a date: a text that writes one. -/
def dateOf? : Json → Option Date
  | .str s => Date.read? (Text.trimmed s)
  | _ => none

/-- The order of a value and a bound, when they can be compared. -/
def orderToBound? (value : Json) : Bound → Option Ordering
  | .number limit => (numberOf? value).bind (·.order? limit)
  | .date limit => (dateOf? value).map (·.order limit)

/-- The limit of a length: the one that is declared as such, or the numeric bound of a string. -/
def lengthLimit? (type : FieldType) (length : Option Nat) (bound : Option Bound) :
    Option Double :=
  match length with
  | some n => some (Double.ofInt n)
  | none => if type = .string then bound.bind Bound.number? else none

/-- The breach of a range. -/
def rangeBreach? (node : MetadataNode) (value : Json) : Option Breach :=
  let below := node.min.filter fun bound => orderToBound? value bound == some .lt
  let above := node.max.filter fun bound => orderToBound? value bound == some .gt
  (below.map fun bound => ⟨.lessThanRange, bound.text⟩) <|>
    (above.map fun bound => ⟨.greaterThanRange, bound.text⟩)

/-- The breach of a length. -/
def lengthBreach? (node : MetadataNode) (value : Json) : Option Breach :=
  let length := Double.ofInt (Json.textLength value)
  let shorter := (lengthLimit? node.type node.minLength node.min).filter fun limit =>
    length.less limit
  let longer := (lengthLimit? node.type node.maxLength node.max).filter fun limit =>
    limit.less length
  (shorter.map fun limit => ⟨.shorterThanRange, limit.plainText⟩) <|>
    (longer.map fun limit => ⟨.longerThanRange, limit.plainText⟩)

/-- The first breach of a present value: first the range, then the length, and of each the lower
limit first. -/
def breach? (node : MetadataNode) (value : Json) : Option Breach :=
  (if node.type.isRanged then rangeBreach? node value else none) <|>
    (if node.type.isContainer then none else lengthBreach? node value)

/-- How a message names a breach. -/
def ValidationCode.comparison : ValidationCode → String
  | .lessThanRange => "less"
  | .greaterThanRange => "greater"
  | .shorterThanRange => "shorter"
  | _ => "longer"

/-- How a message names a limit. -/
def ValidationCode.side : ValidationCode → String
  | .lessThanRange | .shorterThanRange => "minimum"
  | _ => "maximum"

/-- The message of a breach. -/
def breachMessage (fieldName shown : String) (breach : Breach) : String :=
  s!"'{fieldName}' field value is {ValidationCode.comparison breach.code} than the range " ++
    s!"({shown} is passed, the {ValidationCode.side breach.code} is {breach.limit})"

/-- The message of a missing value. -/
def requiredMessage (fieldName shown : String) : String :=
  s!"Field '{fieldName}' is required ({shown} is passed)"

/-- The fault of a required node without a value. -/
def missing (node : MetadataNode) (value : Option Json) : ValidationError :=
  ⟨.required, node.fieldName, requiredMessage node.fieldName (Json.audit value)⟩

/-- The faults of a value by itself. -/
def ownErrors (node : MetadataNode) (value : Option Json) : List ValidationError :=
  match value with
  | none => []
  | some data =>
    if !Json.isPresent value then []
    else
      match breach? node data with
      | none => []
      | some breach =>
        [⟨breach.code, node.fieldName, breachMessage node.fieldName (Json.audit value) breach⟩]

/-- The data in which the children of a node are looked up. Nothing and null count as an empty
object. -/
def nestedData : Option Json → Json
  | none | some .null => .obj []
  | some value => value

/-- Checks the data against some siblings. Every level that is entered takes one from the depth that
is left. Below a required node without a value nothing is checked. -/
def errorsAt (maxDepth : Nat) :
    Nat → Json → List MetadataNode → Except ModelError (List ValidationError)
  | 0, _, _ => .error (.potentialLoop .validation maxDepth)
  | depth + 1, data, nodes => do
    let errors ← nodes.mapM fun node => do
      let value := data.get? node.name
      if !Json.isPresent value && node.isRequired then return [missing node value]
      else if node.children.isEmpty then return ownErrors node value
      else
        let below ← errorsAt maxDepth depth (nestedData value) node.children
        return ownErrors node value ++ below
    return errors.flatten

end Validation

/-- All faults of some data, in the order of the model. -/
def validate (data : Json) (model : List MetadataNode) (maxDepth : Nat) :
    Except ModelError (List ValidationError) :=
  Validation.errorsAt maxDepth maxDepth data model

end DocModel
