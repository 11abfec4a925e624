import DocModel.Decimal.Reading
import DocModel.Json.Value
import DocModel.Template.Fault
import DocModel.Template.Tree

/-!
Arithmetic on the numbers of a template. Integers of one kind, signed or unsigned, stay integers of
that kind and must not leave its range; a division, and any operation with a double or with integers
of two kinds, is one on doubles. A result that is no finite double is no number.
-/

namespace DocModel.Template

/-- Whether an integer is a signed one of 64 bits. -/
def isSigned (n : Int) : Bool := Numeral.minSigned ≤ n && n ≤ Numeral.maxSigned

/-- Whether an integer is an unsigned one of 64 bits. -/
def isUnsigned (n : Int) : Bool := 0 ≤ n && n ≤ Numeral.maxUnsigned

namespace Arithmetic

def name : Arithmetic → String
  | add => "+"
  | sub => "-"
  | mul => "*"
  | div => "/"
  | rem => "%"

/-- The operation on integers. A remainder has the sign of the dividend. Quotients are not taken of
integers. -/
def onInts (op : Arithmetic) (a b : Int) : Option Int :=
  match op with
  | add => some (a + b)
  | sub => some (a - b)
  | mul => some (a * b)
  | rem => if b = 0 then none else some (a.tmod b)
  | div => none

/-- The operation on doubles. -/
def onDoubles (op : Arithmetic) (a b : Double) : Double :=
  match op with
  | add => a.add b
  | sub => a.sub b
  | mul => a.mul b
  | div => a.div b
  | rem => a.rem b

/-- A double as a result. -/
def ofDouble (x : Double) : Option Json :=
  if x.isFinite then some (.real x) else none

/-- An integer as a result, when it belongs to a range. -/
def within (op : Arithmetic) (range : Int → Bool) (result : Option Int) :
    Except Fault (Option Json) :=
  match result with
  | some n => if range n then .ok (some (.int n)) else .error (.outOfRange op.name)
  | none => .error (.outOfRange op.name)

/-- The operation on two numbers. -/
def apply (op : Arithmetic) (a b : Json) : Except Fault (Option Json) :=
  match a.number?, b.number? with
  | some x, some y =>
    match op, a, b with
    | .div, _, _ => .ok (ofDouble (op.onDoubles x y))
    | _, .int m, .int n =>
      if isSigned m && isSigned n then within op isSigned (op.onInts m n)
      else if isUnsigned m && isUnsigned n then within op isUnsigned (op.onInts m n)
      else .ok (ofDouble (op.onDoubles x y))
    | _, _, _ => .ok (ofDouble (op.onDoubles x y))
  | _, _ => .error (.wrongKind op.name)

end Arithmetic

end DocModel.Template
