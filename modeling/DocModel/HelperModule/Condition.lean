import DocModel.Decimal.Reading
import DocModel.HelperModule
import DocModel.Json.Audit
import DocModel.Text.Blank

/-!
The module `cond`: comparisons and connectives as functions of two arguments. Comparisons yield
truth values, and connectives one of their two arguments.
-/

namespace DocModel

/-- An operation on two values. -/
inductive Condition where
  | equal
  | softEqual
  | notEqual
  | softNotEqual
  | and
  | or
  | greater
  | less
deriving DecidableEq

namespace Condition

def all : List Condition :=
  [equal, softEqual, notEqual, softNotEqual, and, or, greater, less]

/-- The name of an operation as an argument. -/
def name : Condition → String
  | equal => "equal"
  | softEqual => "softEqual"
  | notEqual => "notEqual"
  | softNotEqual => "softNotEqual"
  | and => "and"
  | or => "or"
  | greater => "greater"
  | less => "less"

/-- The suffix of the function for one operation. -/
def suffix : Condition → String
  | equal => "equal"
  | softEqual => "soft_equal"
  | notEqual => "not_equal"
  | softNotEqual => "soft_not_equal"
  | and => "and"
  | or => "or"
  | greater => "greater"
  | less => "less"

def ofName? (name : String) : Option Condition :=
  all.find? (·.name == name)

/-- Whether a value counts as true: null, false, zero, NaN and the empty text do not. -/
def isTruthy : Json → Bool
  | .null => false
  | .bool b => b
  | .int n => n ≠ 0
  | .real x => !x.isZero && x ≠ .nan
  | .str s => s ≠ ""
  | .arr _ | .obj _ => true

/-- A value as a number. Null and blank texts are zero, and what is no number is NaN. -/
def toNumber : Json → Double
  | .null => .zero
  | .bool b => .ofInt (if b then 1 else 0)
  | .int n => .ofInt n
  | .real x => x
  | .str s =>
    match Text.trim s.toList with
    | [] => .zero
    | text => (Double.read? text).getD .nan
  | .arr _ | .obj _ => .nan

/-- Equality of values of one kind. Two numbers are compared as doubles; inside of arrays and
objects integers differ from doubles. -/
def strictlyEqual (a b : Json) : Bool :=
  match a.number?, b.number? with
  | some x, some y => x.equal y
  | _, _ => a.same b

/-- Equality after texts and truth values have become numbers where the kinds differ. Null equals
only itself. -/
def softlyEqual (a b : Json) : Bool :=
  match a, b with
  | .null, .null => true
  | .null, _ | _, .null => false
  | .bool x, .bool y => x == y
  | .bool _, _ | _, .bool _ | .int _, .str _ | .real _, .str _ | .str _, .int _ | .str _, .real _ =>
    (toNumber a).equal (toNumber b)
  | _, _ => strictlyEqual a b

/-- The operation on two values. -/
def apply (op : Condition) (a b : Json) : Json :=
  match op with
  | equal => .bool (strictlyEqual a b)
  | softEqual => .bool (softlyEqual a b)
  | notEqual => .bool !(strictlyEqual a b)
  | softNotEqual => .bool !(softlyEqual a b)
  | and => if isTruthy a then b else a
  | or => if isTruthy a then a else b
  | greater => .bool ((toNumber b).less (toNumber a))
  | less => .bool ((toNumber a).less (toNumber b))

/-- Calls an operation; arguments that are missing are null. -/
def call (op : Condition) (args : Entries Json) : Json :=
  op.apply ((args.get? "a").getD .null) ((args.get? "b").getD .null)

/-- The function for one operation. -/
def fixedFunction (op : Condition) : Function :=
  fun args => .ok (op.call args)

/-- The function whose operation is the argument `op`. -/
def openFunction : Function := fun args =>
  match ((args.get? "op").bind Json.string?).bind ofName? with
  | some op => .ok (op.call args)
  | none => .error (.unknownOperation (Json.audit (args.get? "op")))

def moduleName : String := "cond"

/-- The suffixes of the functions whose operation is an argument. -/
def openSuffixes : List (Option String) := [none, some "op", some "no_color"]

/-- The functions of the module by their names. -/
def functions : List (String × Function) :=
  openSuffixes.map (fun suffix => (HelperModule.helperName moduleName suffix, openFunction)) ++
    all.map fun op => (HelperModule.helperName moduleName (some op.suffix), op.fixedFunction)

/-- The module. -/
def helperModule : HelperModule where
  name := moduleName
  helpers := functions.map (·.1)
  filters := []
  functions := functions

end Condition

end DocModel
