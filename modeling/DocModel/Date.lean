import DocModel.Decimal.Layout
import DocModel.Decimal.Reading
import DocModel.Text.Blank

/-!
Calendar dates of the Gregorian calendar, carried on into the past. A date is written as year, month
and day, or as the date part of a timestamp; the time and the offset of a timestamp are checked and
then forgotten.
-/

namespace DocModel

namespace Calendar

/-- Every fourth year is a leap year, except for the centuries that four hundred does not divide. -/
def isLeap (year : Int) : Bool :=
  year % 4 == 0 && (year % 100 != 0 || year % 400 == 0)

/-- The count of days in a month. -/
def daysIn (year : Int) (month : Nat) : Nat :=
  match month with
  | 2 => if isLeap year then 29 else 28
  | 4 | 6 | 9 | 11 => 30
  | _ => 31

def minYear : Int := -262143

def maxYear : Int := 262142

/-- Whether the calendar has this day. -/
def HasDay (year : Int) (month day : Nat) : Prop :=
  minYear ≤ year ∧ year ≤ maxYear ∧ 1 ≤ month ∧ month ≤ 12 ∧ 1 ≤ day ∧ day ≤ daysIn year month

instance (year : Int) (month day : Nat) : Decidable (HasDay year month day) :=
  inferInstanceAs (Decidable (_ ∧ _ ∧ _ ∧ _ ∧ _ ∧ _))

end Calendar

/-- A day of the calendar. -/
structure Date where
  year : Int
  month : Nat
  day : Nat
  exists_day : Calendar.HasDay year month day
deriving DecidableEq

namespace Date

/-- The day with the given numbers, when the calendar has it. -/
def of? (year : Int) (month day : Nat) : Option Date :=
  if h : Calendar.HasDay year month day then some ⟨year, month, day, h⟩ else none

/-- Dates are ordered by year, then month, then day. -/
def order (a b : Date) : Ordering :=
  (compare a.year b.year).then ((compare a.month b.month).then (compare a.day b.day))

/-- At least one and at most `most` digits. -/
def upToDigits (most : Nat) : Scanner Nat := fun s =>
  match (s.take most).takeWhile Char.isDigit with
  | [] => none
  | digits => some (Numeral.natOfDigits digits, s.drop digits.length)

/-- Exactly `count` digits. -/
def exactDigits (count : Nat) : Scanner Nat := fun s =>
  let digits := (s.take count).takeWhile Char.isDigit
  if digits.length = count then some (Numeral.natOfDigits digits, s.drop count) else none

def skipBlanks : Scanner Unit := fun s => some ((), Text.trimStart s)

/-- A year of up to four digits, or of any count of digits behind a sign. -/
def yearNumber : Scanner Int := fun s =>
  match s with
  | '-' :: rest => (Scanner.run1 Char.isDigit rest).map fun (ds, r) => (-Numeral.natOfDigits ds, r)
  | '+' :: rest => (Scanner.run1 Char.isDigit rest).map fun (ds, r) => (Numeral.natOfDigits ds, r)
  | _ => (upToDigits 4 s).map fun (n, rest) => (n, rest)

/-- Year, month and day with dashes between them; blanks may stand before each number. -/
def loose : Scanner (Int × Nat × Nat) := do
  skipBlanks
  let y ← yearNumber
  Scanner.word "-"
  skipBlanks
  let m ← upToDigits 2
  Scanner.word "-"
  skipBlanks
  let d ← upToDigits 2
  return (y, m, d)

/-- A number of two digits below a bound. -/
def twoDigits (below : Nat) : Scanner Unit := do
  let n ← exactDigits 2
  if n < below then return () else failure

/-- Digits behind a point. -/
def secondFraction : Scanner Unit := do
  Scanner.word "."
  let _ ← Scanner.run1 Char.isDigit

/-- An offset: none, or hours and minutes behind a sign. -/
def offset (isSign : Char → Bool) : Scanner Unit :=
  (do let _ ← Scanner.char (fun c => c = 'Z' || c = 'z')) <|> do
    let _ ← Scanner.char isSign
    twoDigits 24
    Scanner.word ":"
    twoDigits 60

/-- The signs of an offset: plus and hyphen. -/
def isOffsetSign (c : Char) : Bool := c = '+' || c = '-'

/-- The date of a timestamp. The sixty-first second of a minute is allowed for, and the offset may
have a minus sign in the place of a hyphen. -/
def timestamp : Scanner (Int × Nat × Nat) := do
  let y ← exactDigits 4
  Scanner.word "-"
  let m ← exactDigits 2
  Scanner.word "-"
  let d ← exactDigits 2
  let _ ← Scanner.char (fun c => c = 'T' || c = 't' || c = ' ')
  twoDigits 24
  Scanner.word ":"
  twoDigits 60
  Scanner.word ":"
  twoDigits 61
  let _ ← Scanner.maybe secondFraction
  offset fun c => isOffsetSign c || c = '\u2212'
  return (y, m, d)

/-- The date that the whole text writes, by itself or in a timestamp. -/
def read? (text : String) : Option Date :=
  let day? (parts : Int × Nat × Nat) := of? parts.1 parts.2.1 parts.2.2
  ((Scanner.whole loose text.toList).bind day?) <|>
    ((Scanner.whole timestamp text.toList).bind day?)

/-- A number with zeros put before it up to a width. -/
def padded (width n : Nat) : List Char :=
  let digits := Decimal.digitsOf n
  Decimal.zeros (width - digits.length) ++ digits

/-- Years have at least four digits, and a sign when they are negative or have more. -/
def yearText (y : Int) : List Char :=
  if y < 0 then '-' :: padded 4 y.natAbs
  else if 9999 < y then '+' :: padded 4 y.natAbs
  else padded 4 y.natAbs

/-- Year, month and day with dashes between them. -/
def text (d : Date) : String :=
  String.ofList (yearText d.year ++ '-' :: padded 2 d.month ++ '-' :: padded 2 d.day)

end Date

end DocModel
