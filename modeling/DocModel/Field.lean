import DocModel.Date
import DocModel.Directive
import DocModel.Json.Reading
import DocModel.Path

/-!
Fields and their options, as directives declare them. A field describes one data path: its type, its
texts, its bounds and its place. An option is a value that can be chosen for a field.
-/

namespace DocModel

/-- The type of a field. Any name is a type. -/
inductive FieldType where
  | string
  | number
  | boolean
  | date
  | object
  | array
  | mixed
  | custom (name : String)
deriving DecidableEq

namespace FieldType

def ofName (name : String) : FieldType :=
  match name with
  | "string" => string
  | "number" => number
  | "boolean" => boolean
  | "date" => date
  | "object" => object
  | "array" => array
  | "mixed" => mixed
  | _ => custom name

def name : FieldType → String
  | string => "string"
  | number => "number"
  | boolean => "boolean"
  | date => "date"
  | object => "object"
  | array => "array"
  | mixed => "mixed"
  | custom name => name

def isCustom : FieldType → Bool
  | custom _ => true
  | _ => false

/-- Types whose values are compared with a range. -/
def isRanged : FieldType → Bool
  | number | date => true
  | _ => false

/-- Types whose values hold other values, so that they have no length. -/
def isContainer : FieldType → Bool
  | object | array | mixed => true
  | _ => false

theorem name_ofName (name : String) : (ofName name).name = name := by
  unfold ofName
  split <;> rfl

end FieldType

/-- A bound of a range. -/
inductive Bound where
  | number (value : Double)
  | date (value : Date)
deriving DecidableEq

namespace Bound

/-- A bound from text: a finite number or a date. -/
def read? (text : String) : Option Bound :=
  let text := Text.trim text.toList
  match Double.read? text with
  | some x => if x.isFinite then some (number x) else none
  | none => (Date.read? (String.ofList text)).map date

def number? : Bound → Option Double
  | number x => some x
  | date _ => none

/-- A bound as it stands in messages. -/
def text : Bound → String
  | number x => x.plainText
  | date d => "'" ++ d.text ++ "'"

/-- A bound as data. -/
def toJson : Bound → Json
  | number x => .real x
  | date d => .str d.text

end Bound

/-- A value that can be chosen for a field. -/
structure FieldOption where
  type : FieldType
  name : String
  fieldName : String
  label : Option String
  descr : Option String
  value : Option Json
  isDisabled : Bool

/-- The description of a data path. -/
structure Field where
  type : FieldType
  name : String
  label : Option String
  descr : Option String
  hint : Option String
  min : Option Bound
  max : Option Bound
  minLength : Option Nat
  maxLength : Option Nat
  order : Option Int
  value : Option Json
  isRequired : Bool
  options : Option (List FieldOption)
  /-- The name of the directive that declared the field. -/
  directiveName : String
  /-- The place of the field among all declared fields. -/
  absoluteOrder : Option Nat

namespace Field

/-- The directive that declares a field. -/
def fieldDirective : String := "field"

/-- The directive that declares a group of fields. -/
def groupDirective : String := "group"

/-- The directive that declares an option. -/
def optionDirective : String := "option"

def isGroup (field : Field) : Bool := field.directiveName == groupDirective

/-- The last field with a name, which is the one that counts. -/
def last? (fields : List Field) (name : String) : Option Field :=
  fields.reverse.find? (·.name == name)

/-- The data that a text stands for: what it writes as data, or else the text itself. -/
def valueOfText (text : String) : Json :=
  (Json.ofText? text).getD (.str text)

def lengthOfText? (text : String) : Option Nat :=
  Numeral.readNat? Numeral.maxUnsigned (Text.trim text.toList)

def orderOfText? (text : String) : Option Int :=
  Numeral.readInt? Numeral.minSigned Numeral.maxSigned (Text.trim text.toList)

/-- The type under the name `type`, or else a string. -/
def typeOf (d : Directive) : FieldType :=
  ((d.named? "type").map FieldType.ofName).getD .string

/-- The field that a directive declares. The name of the directive matters only for groups. -/
def compile (d : Directive) : Except ModelError Field :=
  match d.firstPositional?.filter fun name => !(Text.trim name.toList).isEmpty with
  | none => .error (.missingFieldName d.describe)
  | some rawName =>
    .ok {
      type := if d.name == groupDirective then .object else typeOf d
      name := Path.clean rawName
      label := d.named? "label"
      descr := d.named? "descr"
      hint := d.named? "hint"
      min := (d.named? "min").bind Bound.read?
      max := (d.named? "max").bind Bound.read?
      minLength := (d.named? "minLength").bind lengthOfText?
      maxLength := (d.named? "maxLength").bind lengthOfText?
      order := (d.named? "order").bind orderOfText?
      value := (d.named? "value").map valueOfText
      isRequired := d.flag "required"
      options := none
      directiveName := d.name
      absoluteOrder := none }

/-- The option that a directive declares. -/
def compileOption (d : Directive) : Except ModelError FieldOption :=
  match d.firstPositional?.filter (· ≠ "") with
  | none => .error .missingOptionName
  | some name =>
    match d.named? "for" with
    | none => .error (.missingOptionTarget name)
    | some target =>
      .ok {
        type := typeOf d
        name := name
        fieldName := Path.clean target
        label := d.named? "label"
        descr := d.named? "descr"
        value := (d.named? "value").map valueOfText
        isDisabled := d.flag "disabled" }

end Field

end DocModel
