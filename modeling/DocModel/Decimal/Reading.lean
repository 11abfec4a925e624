import DocModel.Decimal.Rounding
import DocModel.Text.Scanner

/-!
Reading numbers from text. A double is written with an optional sign, digits with an optional point
and an optional exponent, or as a word for infinity or for no number, in any case. An integer is
written with an optional sign and digits.
-/

namespace DocModel

namespace Numeral

/-- The value of a digit. -/
def digitValue (c : Char) : Nat := c.toNat - '0'.toNat

/-- The number that a run of digits writes. -/
def natOfDigits (digits : List Char) : Nat :=
  digits.foldl (fun n c => 10 * n + digitValue c) 0

/-- A sign, negative or not; its absence means that the number is not negative. -/
def sign : Scanner Bool := fun s =>
  match s with
  | '-' :: rest => some (true, rest)
  | '+' :: rest => some (false, rest)
  | _ => some (false, s)

/-- Zero alone, or digits that do not start with a zero. -/
def wholeDigits : Scanner (List Char) := fun s =>
  match s with
  | '0' :: rest => some (['0'], rest)
  | _ => Scanner.run1 Char.isDigit s

/-- The digits after a point, at least one. -/
def partDigits : Scanner (List Char) := do
  Scanner.word "."
  Scanner.run1 Char.isDigit

/-- The digits after a point, perhaps none. -/
def fractionDigits : Scanner (List Char) := do
  Scanner.word "."
  Scanner.run Char.isDigit

/-- An exponent: the letter, an optional sign, and digits. -/
def exponent : Scanner Int := do
  let _ ← Scanner.char (fun c => c = 'e' || c = 'E')
  let negative ← sign
  let digits ← Scanner.run1 Char.isDigit
  return Double.signed negative (natOfDigits digits)

/-- Digits with an optional point among them and an optional exponent behind them. There must be a
digit before or after the point. -/
def unsigned (negative : Bool) : Scanner Double := do
  let whole ← Scanner.run Char.isDigit
  let part := (← Scanner.maybe fractionDigits).getD []
  if whole.isEmpty && part.isEmpty then failure
  let power := (← Scanner.maybe exponent).getD 0
  return Double.ofDecimal negative (natOfDigits (whole ++ part)) (power - part.length)

/-- The numbers that are written as words. -/
def namedDouble? (negative : Bool) (word : List Char) : Option Double :=
  let word := word.map Char.toLower
  if word = "inf".toList || word = "infinity".toList then some (.infinite negative)
  else if word = "nan".toList then some .nan
  else none

end Numeral

open Numeral

/-- The double that the whole text writes. -/
def Double.read? (s : List Char) : Option Double := do
  let (negative, rest) ← sign s
  namedDouble? negative rest <|> Scanner.whole (unsigned negative) rest

/-- The natural number that the whole text writes, when it does not exceed `limit`. A plus sign may
stand before it. -/
def Numeral.readNat? (limit : Nat) (s : List Char) : Option Nat :=
  let digits := match s with
    | '+' :: rest => rest
    | _ => s
  if digits.isEmpty || !digits.all Char.isDigit then none
  else
    let n := natOfDigits digits
    if n ≤ limit then some n else none

/-- The integer that the whole text writes, when it lies between `low` and `high`. -/
def Numeral.readInt? (low high : Int) (s : List Char) : Option Int := do
  let (negative, digits) ← sign s
  if digits.isEmpty || !digits.all Char.isDigit then none
  else
    let n := Double.signed negative (natOfDigits digits)
    if low ≤ n ∧ n ≤ high then some n else none

/-- The largest unsigned integer of 64 bits. -/
def Numeral.maxUnsigned : Nat := 18446744073709551615

/-- The least signed integer of 64 bits. -/
def Numeral.minSigned : Int := -9223372036854775808

/-- The largest signed integer of 64 bits. -/
def Numeral.maxSigned : Int := 9223372036854775807

end DocModel
