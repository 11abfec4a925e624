/-!
Binary floating-point numbers of 64 bits, with their order. A finite number is kept as a sign, a
mantissa and a scale, so that every law about it is a law about natural numbers.
-/

namespace DocModel

/-- A floating-point number of 64 bits, up to the payload of a NaN. A finite one has the value
`± mantissa * 2 ^ scale / 2 ^ 1074`. -/
inductive Double where
  | nan
  | infinite (negative : Bool)
  | finite (negative : Bool) (mantissa scale : Nat)
deriving DecidableEq, Inhabited

namespace Double

/-- The bits of a mantissa. -/
def precision : Nat := 53

/-- Finite numbers are multiples of `1 / 2 ^ fraction`. -/
def fraction : Nat := 1074

/-- The largest scale of a finite number. -/
def maxScale : Nat := 2045

def zero : Double := finite false 0 0

def isFinite : Double → Bool
  | finite .. => true
  | _ => false

/-- The magnitude with its sign. -/
def signed (negative : Bool) (magnitude : Nat) : Int :=
  if negative then -magnitude else magnitude

/-- The place of a number on the line, in units of `1 / 2 ^ fraction`; the infinities stand beyond
every finite number, and a NaN has no place. Both zeros have the same one. -/
def place? : Double → Option Int
  | nan => none
  | infinite negative => some (signed negative (Nat.pow 2 (maxScale + precision)))
  | finite negative mantissa scale => some (signed negative (mantissa <<< scale))

/-- The order of two numbers; a NaN has none with anything. -/
def order? (a b : Double) : Option Ordering :=
  match a.place?, b.place? with
  | some x, some y => some (compare x y)
  | _, _ => none

/-- Equality of numbers: the zeros are equal, and a NaN is equal to nothing. -/
def equal (a b : Double) : Bool :=
  match a.place?, b.place? with
  | some x, some y => x == y
  | _, _ => false

/-- The strict order of numbers, false as soon as one of them is a NaN. -/
def less (a b : Double) : Bool :=
  match a.place?, b.place? with
  | some x, some y => decide (x < y)
  | _, _ => false

theorem place?_eq_none_iff {a : Double} : a.place? = none ↔ a = nan := by
  cases a <;> simp [place?]

theorem equal_iff {a b : Double} : a.equal b ↔ a ≠ nan ∧ a.place? = b.place? := by
  rw [equal, Ne, ← place?_eq_none_iff]
  cases a.place? <;> cases b.place? <;> simp

end Double

end DocModel
