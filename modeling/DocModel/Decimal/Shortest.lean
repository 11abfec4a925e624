import DocModel.Decimal.Rounding

/-!
The shortest decimal that reads back as a given double. A double stands for all the reals that round
to it; the wanted decimal is the point of the coarsest decimal grid among them, and of two such
points on one grid the one nearer to the double.
-/

namespace DocModel

/-- The decimal `digits * 10 ^ exponent`. -/
structure Decimal where
  digits : Nat
  exponent : Int
deriving DecidableEq

namespace Decimal

/-- A positive ratio with the ends of the interval that rounds to it, over one denominator. Whether
the ends belong to the interval is `closed`. -/
structure Interval where
  low : Nat
  value : Nat
  high : Nat
  denominator : Nat
  closed : Bool

/-- The reals that round to the double of a positive mantissa. Below a power of two the next double
is only half as far away. -/
def Interval.ofDouble (mantissa scale : Nat) : Interval where
  low :=
    (if mantissa = Nat.pow 2 (Double.precision - 1) ∧ scale ≠ 0 then 4 * mantissa - 1
      else 4 * mantissa - 2) <<< scale
  value := (4 * mantissa) <<< scale
  high := (4 * mantissa + 2) <<< scale
  denominator := Nat.pow 2 (Double.fraction + 2)
  closed := mantissa % 2 == 0

/-- Whether the point `n * unit` lies in the interval, where `unit` is measured in the interval's
own numerators. -/
def Interval.has (i : Interval) (point : Nat) : Bool :=
  if i.closed then i.low ≤ point && point ≤ i.high
  else i.low < point && point < i.high

/-- The interval with all its numerators multiplied. -/
def Interval.scaleUp (i : Interval) (factor : Nat) : Interval :=
  { i with low := i.low * factor, value := i.value * factor, high := i.high * factor }

/-- The point of the grid of the given exponent that lies in the interval, if there is one. -/
def Interval.onGrid? (i : Interval) (exponent : Int) : Option Nat :=
  let (i, unit) := match exponent with
    | .ofNat n => (i, i.denominator * Nat.pow 10 n)
    | .negSucc n => (i.scaleUp (Nat.pow 10 (n + 1)), i.denominator)
  let below := i.value / unit
  let above := below + 1
  match i.has (below * unit), i.has (above * unit) with
  | true, true =>
    if 2 * i.value < (below + above) * unit ∨
        (2 * i.value = (below + above) * unit ∧ below % 2 = 0) then some below
    else some above
  | true, false => some below
  | false, true => some above
  | false, false => none

/-- The first grid with a point, starting with the given exponent and refining at most `n` times. -/
def Interval.coarsest (i : Interval) (exponent : Int) : Nat → Decimal
  | 0 => ⟨(i.onGrid? exponent).getD 0, exponent⟩
  | n + 1 =>
    match i.onGrid? exponent with
    | some digits => ⟨digits, exponent⟩
    | none => i.coarsest (exponent - 1) n

/-- An exponent whose grid is too coarse for the interval: the value lies below that power of ten.
The logarithm of two is taken a little too large above one and a little too small below it. -/
def Interval.start (i : Interval) : Int :=
  let binary : Int := (i.value.log2 : Int) - i.denominator.log2
  binary * 30103 / 100000 + 2

/-- The shortest decimal that reads back as the double with the given positive mantissa. Seventeen
digits always suffice, and the starting grid is at most three too coarse. -/
def shortest (mantissa scale : Nat) : Decimal :=
  let interval := Interval.ofDouble mantissa scale
  interval.coarsest interval.start 20

end Decimal

end DocModel
