import DocModel.Decimal.Reading
import DocModel.Json.Value

/-!
Numbers in data. A number without fraction and exponent that fits into 64 bits is an integer; every
other one is a double. The significand of a double keeps as many digits as fit into 64 bits and is
rounded first; it is then scaled by a power of ten, which rounds again.
-/

namespace DocModel.Json

/-- The largest power of ten that scales in one step. -/
def maxPower : Nat := 308

/-- Division by a power of ten in steps of the largest one, until the number vanishes. -/
def scaleDown (x : Double) (power : Nat) : Double :=
  if power ≤ maxPower ∨ x.isZero then x.div (.ofDecimal false 1 (min power maxPower))
  else scaleDown (x.div (.ofDecimal false 1 maxPower)) (power - maxPower)
termination_by power
decreasing_by simp only [maxPower] at *; omega

/-- The double of a significand and a power of ten, unless it is too large for one. -/
def scaled? (negative : Bool) (significand : Nat) (power : Int) : Option Double :=
  let start := Double.ofRatio false significand 1
  let magnitude :=
    if significand = 0 then start
    else
      match power with
      | .ofNat n => start.mul (.ofDecimal false 1 n)
      | .negSucc n => scaleDown start (n + 1)
  if magnitude.isFinite then some (if negative then magnitude.negate else magnitude) else none

/-- Takes digits into a significand as long as it fits into 64 bits, and counts them. -/
def absorb (significand : Nat) : List Char → Nat × Nat
  | [] => (significand, 0)
  | c :: rest =>
    let next := 10 * significand + Numeral.digitValue c
    if next ≤ Numeral.maxUnsigned then
      let (all, count) := absorb next rest
      (all, count + 1)
    else (significand, 0)

/-- An integer without further parts. Zero with a minus sign, and integers that do not fit, are
doubles. -/
def integer? (negative : Bool) (digits : List Char) : Option Json :=
  let (significand, count) := absorb 0 digits
  if count < digits.length then
    (scaled? negative significand (digits.length - count)).map real
  else if !negative then some (int significand)
  else if 0 < significand ∧ Numeral.minSigned ≤ -significand then some (int (-significand))
  else some (real (Double.ofRatio false significand 1).negate)

/-- A number with a fraction or an exponent. -/
def fractional? (negative : Bool) (digits part : List Char) (power : Int) : Option Json :=
  let (head, count) := absorb 0 digits
  let (significand, taken) := absorb head part
  (scaled? negative significand (digits.length - count - taken + power)).map real

/-- The parts of a number: its sign, the digits before the point, those after it, and the
exponent. -/
def numberParts : Scanner (Bool × List Char × Option (List Char) × Option Int) := do
  let negative := (← Scanner.maybe (Scanner.word "-")).isSome
  let digits ← Numeral.wholeDigits
  let part ← Scanner.maybe Numeral.partDigits
  let power ← Scanner.maybe Numeral.exponent
  return (negative, digits, part, power)

/-- The number that a word writes. -/
def numberOfWord? (word : List Char) : Option Json := do
  match ← Scanner.whole numberParts word with
  | (negative, digits, none, none) => integer? negative digits
  | (negative, digits, part, power) =>
    fractional? negative digits (part.getD []) (power.getD 0)

end DocModel.Json
