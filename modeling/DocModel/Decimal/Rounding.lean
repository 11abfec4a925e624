import DocModel.Decimal.Double

/-!
Rounding a ratio to the nearest double, and the arithmetic that this gives. A tie goes to the even
mantissa. Results are exact up to that one rounding.
-/

namespace DocModel

/-- The natural number nearest to `num / den`, the even one of two. -/
def roundEven (num den : Nat) : Nat :=
  let low := num / den
  let twice := 2 * (num % den)
  if twice < den then low
  else if den < twice then low + 1
  else low + low % 2

namespace Double

/-- The double with the given mantissa, which may be one past the largest. -/
def ofMantissa (negative : Bool) (mantissa scale : Nat) : Double :=
  let (mantissa, scale) :=
    if mantissa = Nat.pow 2 precision then (Nat.pow 2 (precision - 1), scale + 1)
    else (mantissa, scale)
  if maxScale < scale then infinite negative else finite negative mantissa scale

/-- The double nearest to `num / den`, or an infinity when it lies beyond the finite ones. -/
def ofRatio (negative : Bool) (num den : Nat) : Double :=
  let units := num <<< fraction
  let scale := (units / den).log2 + 1 - precision
  ofMantissa negative (roundEven units (den <<< scale)) scale

/-- The double nearest to an integer. -/
def ofInt (n : Int) : Double :=
  ofRatio (decide (n < 0)) n.natAbs 1

/-- The count of decimal digits of a number; zero has one. -/
def decimalLength (n : Nat) : Nat :=
  (Nat.toDigits 10 n).length

/-- The double nearest to `digits * 10 ^ exponent`. The two outer cases lie beyond half the smallest
double and beyond the largest one, so that no huge power is ever formed. -/
def ofDecimal (negative : Bool) (digits : Nat) (exponent : Int) : Double :=
  let order := decimalLength digits + exponent
  if digits = 0 ∨ order < -330 then finite negative 0 0
  else if 330 < order then infinite negative
  else
    match exponent with
    | .ofNat n => ofRatio negative (digits * Nat.pow 10 n) 1
    | .negSucc n => ofRatio negative digits (Nat.pow 10 (n + 1))

def isNegative : Double → Bool
  | nan => false
  | infinite negative => negative
  | finite negative _ _ => negative

/-- The size of a finite number in units of `1 / 2 ^ fraction`. -/
def magnitude : Double → Nat
  | finite _ mantissa scale => mantissa <<< scale
  | _ => 0

/-- Whether a number is one of the two zeros. -/
def isZero : Double → Bool
  | finite _ mantissa _ => mantissa == 0
  | _ => false

def negate : Double → Double
  | nan => nan
  | infinite negative => infinite (!negative)
  | finite negative mantissa scale => finite (!negative) mantissa scale

/-- A sum of two numbers that cancel is the positive zero, unless both are negative zeros. -/
def add (a b : Double) : Double :=
  match a, b with
  | nan, _ | _, nan => nan
  | infinite s, infinite t => if s = t then infinite s else nan
  | infinite s, _ | _, infinite s => infinite s
  | finite s _ _, finite t _ _ =>
    let sum := signed s a.magnitude + signed t b.magnitude
    if sum = 0 then finite (s && t) 0 0
    else ofRatio (decide (sum < 0)) sum.natAbs (Nat.pow 2 fraction)

def sub (a b : Double) : Double := add a b.negate

def mul (a b : Double) : Double :=
  let negative := a.isNegative != b.isNegative
  match a, b with
  | nan, _ | _, nan => nan
  | infinite _, y => if y.isZero then nan else infinite negative
  | x, infinite _ => if x.isZero then nan else infinite negative
  | x, y => ofRatio negative (x.magnitude * y.magnitude) (Nat.pow 2 (2 * fraction))

def div (a b : Double) : Double :=
  let negative := a.isNegative != b.isNegative
  match a, b with
  | nan, _ | _, nan => nan
  | infinite _, infinite _ => nan
  | infinite _, _ => infinite negative
  | _, infinite _ => finite negative 0 0
  | x, y =>
    if y.isZero then if x.isZero then nan else infinite negative
    else ofRatio negative x.magnitude y.magnitude

/-- The remainder of a division rounded toward zero, with the sign of the dividend. -/
def rem (a b : Double) : Double :=
  match a, b with
  | nan, _ | _, nan => nan
  | infinite _, _ => nan
  | x, infinite _ => x
  | x, y =>
    if y.isZero then nan
    else ofRatio x.isNegative (x.magnitude % y.magnitude) (Nat.pow 2 fraction)

end Double

/-- Rounding is off by at most one half. -/
theorem roundEven_bounds {num den : Nat} (h : 0 < den) :
    2 * num ≤ (2 * roundEven num den + 1) * den ∧
      2 * roundEven num den * den ≤ 2 * num + den := by
  have hdiv := Nat.div_add_mod num den
  have hlt := Nat.mod_lt num h
  have hcomm : den * (num / den) = num / den * den := Nat.mul_comm ..
  unfold roundEven
  dsimp only
  split
  · constructor <;> grind
  · split
    · constructor <;> grind
    · rcases Nat.mod_two_eq_zero_or_one (num / den) with h0 | h1
      · rw [h0]; constructor <;> grind
      · rw [h1]; constructor <;> grind

end DocModel
