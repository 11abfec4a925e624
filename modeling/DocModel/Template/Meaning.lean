import DocModel.Template.Arithmetic
import DocModel.Template.Engine
import DocModel.Template.Evaluation
import DocModel.Text.Markup

/-!
The meaning of expressions. An expression has three readings: as a value, as a truth value, and as a
number. Which reading is taken depends on what stands around the expression: an output takes the
value, a condition the truth value, and arithmetic the number. A text that becomes part of the
output is escaped as markup; that depends on where it comes from and on the last filter.
-/

namespace DocModel.Template

/-- Everything besides the frames that the meaning of an expression depends on. -/
structure Env where
  engine : Engine
  /-- Whether texts become markup. -/
  escaping : Bool
  /-- The output of a routine, by its name, its arguments, and whether texts become markup. An
  argument that is not given is missing, and one that is not needed is never looked at. -/
  callRoutine : String → (String → Option (Eval Json)) → Bool → Eval String

namespace Env

/-- The same without escaping, for values that are worked on. -/
def plain (env : Env) : Env := { env with escaping := false }

end Env

/-- The three readings of an expression. A number is missing when arithmetic has no result. -/
structure Meaning where
  value : Env → Eval Json
  truth : Env → Eval Bool
  number : Env → Eval (Option Json)

/-- A value, and whether it has to be escaped if it is a text. -/
structure Escapable where
  value : Json
  escapes : Bool

/-- The readings of an operand by itself. -/
structure OperandMeaning where
  value : Env → Eval Escapable
  truth : Env → Eval Bool
  number : Env → Eval (Option Json)

/-- A call with the meanings of its arguments. -/
structure CallMeaning where
  name : String
  args : List (String × Meaning)

/-- Whether a value counts as true. -/
def isTruthy : Json → Bool
  | .null => false
  | .bool b => b
  | .int n => n ≠ 0
  | .real x => !x.isZero && x ≠ .nan
  | .str s => s ≠ ""
  | .arr items => !items.isEmpty
  | .obj entries => !entries.isEmpty

/-- A value as a number. -/
def numberOf (operation : String) (value : Json) : Except Fault (Option Json) :=
  match value with
  | .int _ | .real _ => .ok (some value)
  | _ => .error (.wrongKind operation)

/-- A number as a truth value. -/
def truthOfNumber : Option Json → Bool
  | some n => isTruthy n
  | none => false

namespace CallMeaning

/-- The values of the arguments. They are worked on, so that nothing in them is escaped. -/
def argValues (call : CallMeaning) (env : Env) : Eval (Entries Json) :=
  call.args.mapM fun (name, arg) => do
    let value ← arg.value env.plain
    return (name, value)

/-- Calls a function. -/
def callFunction (call : CallMeaning) (env : Env) : Eval Json := do
  let function ← env.engine.function? call.name
  let args ← call.argValues env
  function args

/-- Calls a filter on a value. -/
def applyFilter (call : CallMeaning) (env : Env) (start : Escapable) : Eval Escapable := do
  let filter ← env.engine.filter? call.name
  let args ← call.argValues env
  let value ← filter.apply start.value args
  return ⟨value, !filter.yieldsMarkup⟩

end CallMeaning

/-- The name of the filter that marks a text as markup. -/
def safeFilter : String := "safe"

/-- The name of the filter that stands in for a missing value. -/
def defaultFilter : String := "default"

namespace Filters

/-- The value that stands in for a missing one, when the first filter gives one. -/
def standIn? (filters : List CallMeaning) (env : Env) : Option (Eval Json) :=
  match filters with
  | first :: _ =>
    if first.name = defaultFilter then
      match first.args.find? (·.1 == "value") with
      | some (_, value) => some (value.value env)
      | none => some (throw (.missingArgument "value"))
    else none
  | [] => none

/-- Whether the last filter marks a text as markup. -/
def endSafe (filters : List CallMeaning) : Bool :=
  match filters.getLast? with
  | some last => last.name == safeFilter
  | none => false

/-- Applies the filters in order; the two that only mark or stand in change nothing. -/
def applyAll (filters : List CallMeaning) (env : Env) (start : Escapable) : Eval Escapable :=
  filters.foldlM
    (fun current filter =>
      if filter.name = safeFilter ∨ filter.name = defaultFilter then return current
      else filter.applyFilter env current)
    start

/-- What becomes of the value of an operand: filters, then negation or escaping. -/
def finish (filters : List CallMeaning) (negated : Bool) (env : Env) (start : Escapable) :
    Eval Json := do
  let result ← applyAll filters env start
  if negated then return .bool (!isTruthy result.value)
  match result.value with
  | .str s =>
    if env.escaping && result.escapes && !endSafe filters then return .str (Text.escapeMarkup s)
    else return .str s
  | value => return value

end Filters

namespace Meaning

/-- The value of a name with filters. A missing value, and null, give way to the one that stands in
for them; a missing value that is negated is true. The text of all names is not escaped. -/
def valueOfName (path : String) (filters : List CallMeaning) (negated : Bool) (env : Env) :
    Eval Json := do
  match ← lookUp path, Filters.standIn? filters env with
  | none, none => if negated then return .bool true else throw (.unknownName path)
  | none, some other | some .null, some other =>
    let value ← other
    Filters.finish filters negated env ⟨value, true⟩
  | some value, _ => Filters.finish filters negated env ⟨value, path ≠ contextName⟩

/-- The number of an expression. Filters make it the number of the whole value. -/
def numberWith (operand : OperandMeaning) (filters : List CallMeaning)
    (value : Env → Eval Json) (env : Env) : Eval (Option Json) := do
  if filters.isEmpty then operand.number env
  else
    let result ← value env
    numberOf "filter" result

/-- An expression whose operand is a name. As a condition, a name whose value cannot be had is
false; the frames stay as the fault left them. -/
def ofName (path : String) (operand : OperandMeaning) (filters : List CallMeaning)
    (negated : Bool) : Meaning where
  value := valueOfName path filters negated
  truth env :=
    tryCatch
      (do
        let value ← valueOfName path filters negated env
        return isTruthy value)
      fun _ => return false
  number := numberWith operand filters (valueOfName path filters negated)

/-- The value of an operand with filters. -/
def valueOfOperand (operand : OperandMeaning) (filters : List CallMeaning) (negated : Bool)
    (env : Env) : Eval Json := do
  let start ← operand.value env
  Filters.finish filters negated env start

/-- An expression whose operand is not a name. As a condition its filters do not count. -/
def ofOperand (operand : OperandMeaning) (filters : List CallMeaning) (negated : Bool) :
    Meaning where
  value := valueOfOperand operand filters negated
  truth env := do
    let b ← operand.truth env
    return b != negated
  number := numberWith operand filters (valueOfOperand operand filters negated)

/-- An expression whose operand is a concatenation. As a condition its filters count, and a negated
one is no text. -/
def ofConcatenation (operand : OperandMeaning) (filters : List CallMeaning) (negated : Bool) :
    Meaning where
  value := valueOfOperand operand filters negated
  truth env := do
    match ← valueOfOperand operand filters negated env with
    | .str s => return s ≠ ""
    | _ => throw (.wrongKind "~")
  number := numberWith operand filters (valueOfOperand operand filters negated)

/-- An expression whose operand is a connective or comparison; `none` says that the values are of
kinds that cannot be compared, and then the condition does not hold, negated or not. The value of
such an expression starts from the condition with its negation, and is negated once more. -/
def ofLogical (holds : Env → Eval (Option Bool)) (operand : OperandMeaning)
    (filters : List CallMeaning) (negated : Bool) : Meaning :=
  let truth env := do
    let b ← holds env
    return b.any (· != negated)
  let value env := do
    let b ← truth env
    Filters.finish filters negated env ⟨.bool b, false⟩
  { truth, value, number := numberWith operand filters value }

end Meaning

namespace OperandMeaning

/-- An operand that is no number. -/
def notANumber (operation : String) (_ : Env) : Eval (Option Json) :=
  throw (.wrongKind operation)

/-- An operand that is a truth value. -/
def ofTruth (operation : String) (truth : Env → Eval Bool) : OperandMeaning where
  value env := do
    let b ← truth env
    return ⟨.bool b, false⟩
  truth := truth
  number := notANumber operation

/-- An operand that is a condition, or `none` for values that cannot be compared. -/
def ofCondition (holds : Env → Eval (Option Bool)) : OperandMeaning :=
  ofTruth "condition" fun env => do
    let b ← holds env
    return b.getD false

/-- An operand that is a number. -/
def ofNumber (number : Env → Eval (Option Json)) : OperandMeaning where
  value env := do
    let n ← number env
    return ⟨n.getD (.str "NaN"), false⟩
  truth env := do
    let n ← number env
    return truthOfNumber n
  number := number

/-- An operand that is a text. -/
def ofText (operation : String) (escapes : Bool) (text : Env → Eval String) :
    OperandMeaning where
  value env := do
    let s ← text env
    return ⟨.str s, escapes⟩
  truth env := do
    let s ← text env
    return s ≠ ""
  number := notANumber operation

/-- The value of a path, which has to have one. -/
def valueOfPath (path : String) : Eval Json := do
  match ← lookUp path with
  | some value => return value
  | none => throw (.unknownName path)

/-- A name by itself; see `Meaning.ofName` for a name with filters behind it. -/
def ofName (path : String) : OperandMeaning where
  value _ := do
    let value ← valueOfPath path
    return ⟨value, true⟩
  truth _ := do
    let value ← lookUp path
    return value.any isTruthy
  number _ := do
    let value ← valueOfPath path
    numberOf path value

/-- The call of a function. As a condition it has to yield a truth value. -/
def ofCall (call : CallMeaning) : OperandMeaning where
  value env := do
    let value ← call.callFunction env
    return ⟨value, true⟩
  truth env := do
    match ← call.callFunction env with
    | .bool b => return b
    | _ => throw (.wrongKind call.name)
  number env := do
    let value ← call.callFunction env
    numberOf call.name value

/-- The name of the place in which a template finds its own routines. -/
def ownSpace : String := "self"

/-- The output of a routine, which is markup already. -/
def ofRoutine (space : String) (call : CallMeaning) : OperandMeaning :=
  ofText call.name false fun env =>
    if space = ownSpace then
      env.callRoutine call.name
        (fun name => (call.args.find? (·.1 == name)).map fun arg => arg.2.value env.plain)
        env.escaping
    else throw (.unknownRoutine call.name)

/-- The test of a name, whose arguments are evaluated first. Only whether a value is there can be
tested. -/
def ofTest (negated : Bool) (subject name : String) (args : List Meaning) : OperandMeaning :=
  ofTruth name fun env => do
    if name ≠ "defined" ∧ name ≠ "undefined" then throw (.unknownTest name)
    let values ← args.mapM fun arg => arg.value env.plain
    if !values.isEmpty then throw (.wrongKind name)
    let found := (← lookUp subject).isSome
    return (found != (name == "undefined")) != negated

/-- Whether the first text is a part of the second. -/
def isPartOf (inner : List Char) : List Char → Bool
  | [] => inner.isEmpty
  | c :: rest => inner.isPrefixOf (c :: rest) || isPartOf inner rest

/-- Whether a value belongs to an array, a text to a text, or a key to an object. -/
def belongs (item container : Json) : Except Fault Bool :=
  match container, item with
  | .arr items, item => .ok (items.any (·.same item))
  | .str whole, .str s => .ok (isPartOf s.toList whole.toList)
  | .obj entries, .str key => .ok ((Entries.get? entries key).isSome)
  | _, _ => .error (.wrongKind "in")

/-- A membership. -/
def ofMembership (negated : Bool) (item container : Meaning) : OperandMeaning :=
  ofTruth "in" fun env => do
    let a ← item.value env.plain
    let b ← container.value env.plain
    let found ← belongs a b
    return found != negated

/-- An array, whose items are escaped one by one. -/
def ofItems (items : List Meaning) : OperandMeaning where
  value env := do
    let values ← items.mapM fun item => item.value env
    return ⟨.arr values, false⟩
  truth env := do
    let values ← items.mapM fun item => item.value env
    return !values.isEmpty
  number := notANumber "array"

/-- Arithmetic: without a result as soon as one operand has none. -/
def ofArithmetic (op : Arithmetic) (left right : Meaning) : OperandMeaning :=
  ofNumber fun env => do
    let a ← left.number env
    let b ← right.number env
    match a, b with
    | some a, some b => op.apply a b
    | _, _ => return none

/-- Equality as templates know it. A number equals numbers only, compared as doubles; `none` says
that the two values are of kinds that cannot be compared. -/
def equality? (a b : Json) : Option Bool :=
  match a.number?, b.number? with
  | some x, some y => some (x.equal y)
  | none, none => some (a.same b)
  | _, _ => none

/-- A comparison of two numbers. -/
def compareNumbers (test : Double → Double → Bool) (left right : Meaning) (env : Env) :
    Eval Bool := do
  let a ← left.number env
  let b ← right.number env
  match a.bind Json.number?, b.bind Json.number? with
  | some x, some y => return test x y
  | _, _ => throw (.wrongKind "comparison")

/-- Whether a connective or comparison holds, if its operands can be compared. A connective looks at
its right operand only if the left one leaves the result open. -/
def holds? (op : Logical) (left right : Meaning) (env : Env) : Eval (Option Bool) := do
  match op with
  | .or =>
    let a ← left.truth env
    if a then return true
    right.truth env
  | .and =>
    let a ← left.truth env
    if a then right.truth env else return false
  | .equal =>
    let a ← left.value env
    let b ← right.value env
    return equality? a b
  | .notEqual =>
    let a ← left.value env
    let b ← right.value env
    return (equality? a b).map not
  | .less => compareNumbers Double.less left right env
  | .atMost => compareNumbers (fun x y => !y.less x) left right env
  | .greater => compareNumbers (fun x y => y.less x) left right env
  | .atLeast => compareNumbers (fun x y => !x.less y) left right env

/-- A text or number as a part of a concatenation. -/
def partText (value : Json) : Except Fault String :=
  match value with
  | .str s => .ok s
  | .int n => .ok (toString n)
  | .real x => .ok x.dataText
  | _ => .error (.wrongKind "~")

/-- A concatenation. It is escaped as a whole, but only if one of its parts is a call. -/
def ofParts (escapes : Bool) (parts : List (Env → Eval String)) : OperandMeaning :=
  ofText "~" escapes fun env => do
    let texts ← parts.mapM fun part => part env
    return String.join texts

end OperandMeaning

mutual

/-- The readings of an expression. -/
def Expr.meaning : Expr → Meaning
  | .mk (.name path) filters negated =>
    .ofName path (.ofName path) (callMeanings filters) negated
  | .mk (.logical op left right) filters negated =>
    let holds := OperandMeaning.holds? op left.meaning right.meaning
    .ofLogical holds (.ofCondition holds) (callMeanings filters) negated
  | .mk (.concat parts) filters negated =>
    .ofConcatenation (.ofParts (parts.any Operand.isCall) (partTexts parts))
      (callMeanings filters) negated
  | .mk operand filters negated =>
    .ofOperand operand.meaning (callMeanings filters) negated

/-- The readings of an operand. -/
def Operand.meaning : Operand → OperandMeaning
  | .name path => .ofName path
  | .text s => .ofText "text" true fun _ => return s
  | .int n => .ofNumber fun _ => return some (.int n)
  | .real x => .ofNumber fun _ => return some (.real x)
  | .bool b => .ofTruth "bool" fun _ => return b
  | .arithmetic op left right => .ofArithmetic op left.meaning right.meaning
  | .logical op left right => .ofCondition (OperandMeaning.holds? op left.meaning right.meaning)
  | .membership negated left right => .ofMembership negated left.meaning right.meaning
  | .test negated subject name args => .ofTest negated subject name (itemMeanings args)
  | .routineCall space name args => .ofRoutine space ⟨name, argMeanings args⟩
  | .call call => .ofCall call.meaning
  | .array items => .ofItems (itemMeanings items)
  | .concat parts => .ofParts (parts.any Operand.isCall) (partTexts parts)

/-- The text of a part of a concatenation. A double as a literal has no fraction when it is
whole. -/
def Operand.partText : Operand → Env → Eval String
  | .text s => fun _ => return s
  | .real x => fun _ => return x.plainText
  | operand => fun env => do
    let found ← operand.meaning.value env
    OperandMeaning.partText found.value

def Call.meaning : Call → CallMeaning
  | .mk name args => ⟨name, argMeanings args⟩

def callMeanings : List Call → List CallMeaning
  | [] => []
  | call :: rest => call.meaning :: callMeanings rest

def itemMeanings : List Expr → List Meaning
  | [] => []
  | e :: rest => e.meaning :: itemMeanings rest

def argMeanings : List (String × Expr) → List (String × Meaning)
  | [] => []
  | (name, e) :: rest => (name, e.meaning) :: argMeanings rest

def partTexts : List Operand → List (Env → Eval String)
  | [] => []
  | operand :: rest => operand.partText :: partTexts rest

end

end DocModel.Template
