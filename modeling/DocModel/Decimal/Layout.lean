import DocModel.Decimal.Shortest

/-!
The written forms of numbers. Both forms of a double show its shortest digits: the plain form always
by place, without a fraction when there is none; the data form with a fraction in the middle range
and with an exponent outside of it.
-/

namespace DocModel

namespace Decimal

/-- The digits of a natural number. -/
def digitsOf (n : Nat) : List Char := Nat.toDigits 10 n

def zeros (n : Nat) : List Char := List.replicate n '0'

/-- The digits before and after the point. The second list is empty for a whole number. -/
def places (d : Decimal) : List Char × List Char :=
  let digits := digitsOf d.digits
  match d.exponent with
  | .ofNat n => (digits ++ zeros n, [])
  | .negSucc n =>
    let count := n + 1
    let padded := zeros (count + 1 - digits.length) ++ digits
    (padded.take (padded.length - count), padded.drop (padded.length - count))

/-- By place, without a point for a whole number. -/
def plain (d : Decimal) : List Char :=
  match d.places with
  | (whole, []) => whole
  | (whole, part) => whole ++ '.' :: part

/-- By place, with at least one digit after the point. -/
def pointed (d : Decimal) : List Char :=
  match d.places with
  | (whole, []) => whole ++ ['.', '0']
  | (whole, part) => whole ++ '.' :: part

/-- One digit before the point, and the exponent with its sign. -/
def scientific (d : Decimal) : List Char :=
  let digits := digitsOf d.digits
  let power : Int := d.exponent + digits.length - 1
  let mantissa := match digits with
    | first :: second :: rest => first :: '.' :: second :: rest
    | _ => digits
  mantissa ++ 'e' :: (if power < 0 then '-' else '+') :: digitsOf power.natAbs

/-- From one hundred-thousandth up to ten to the sixteenth a number is written by place. -/
def inDataForm (d : Decimal) : List Char :=
  let order : Int := d.exponent + (digitsOf d.digits).length
  if -5 < order ∧ order ≤ 16 then d.pointed else d.scientific

end Decimal

namespace Double

/-- The sign of a number and then its size, written by `layout`. -/
def write (layout : Decimal → List Char) (ofZero : List Char) : Double → List Char
  | nan => "NaN".toList
  | infinite negative => (if negative then ['-'] else []) ++ "inf".toList
  | finite negative mantissa scale =>
    (if negative then ['-'] else []) ++
      if mantissa = 0 then ofZero else layout (Decimal.shortest mantissa scale)

/-- The plain form: `18`, `0.1`, `-0`. -/
def plainText (x : Double) : String :=
  String.ofList (x.write Decimal.plain ['0'])

/-- The data form: `18.0`, `0.00001`, `1e+16`. -/
def dataText (x : Double) : String :=
  String.ofList (x.write Decimal.inDataForm ['0', '.', '0'])

end Double

end DocModel
