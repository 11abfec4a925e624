import DocModel.Field
import DocModel.Proofs.Decimal.Integers
import DocModel.Proofs.Path.Nameless

/-!
Reading the decimal form of an integer. Digits, with or without a minus sign in front of them, are read as
the double nearest to the integer that they write, wherever a number or a bound is read.
-/

namespace DocModel

namespace Numeral

variable {digits : List Char}

theorem natOfDigits_toDigits (n : Nat) : natOfDigits (Nat.toDigits 10 n) = n :=
  Nat.ofDigitChars_ten_toDigits

theorem isDigit_of_mem_toDigits {n : Nat} {c : Char} (hc : c ∈ Nat.toDigits 10 n) : c.isDigit = true :=
  Nat.isDigit_of_mem_toDigits (by decide) (by decide) hc

theorem sign_of_digits (hdigits : ∀ c ∈ digits, c.isDigit = true) : sign digits = some (false, digits) := by
  unfold sign
  split
  · exact absurd (hdigits '-' List.mem_cons_self) (by decide)
  · exact absurd (hdigits '+' List.mem_cons_self) (by decide)
  · rfl

/-- The words for infinity and for no number begin with letters. -/
theorem namedDouble?_of_digits (hdigits : ∀ c ∈ digits, c.isDigit = true) (negative : Bool) :
    namedDouble? negative digits = none := by
  have hword {word : List Char} {first : Char} {rest : List Char} (hcons : word = first :: rest)
      (hfirst : first.isDigit = false) : digits.map Char.toLower ≠ word := by
    rintro hlower
    obtain ⟨c, more, rfl, hc, -⟩ := List.map_eq_cons_iff.mp (hlower.trans hcons)
    have hdigit := hdigits c List.mem_cons_self
    have hsame : c.toLower = c := by
      simp only [Char.toLower, Char.isDigit] at *
      grind
    rw [← hc, hsame, hdigit] at hfirst
    cases hfirst
  have hinf : digits.map Char.toLower ≠ "inf".toList := hword rfl rfl
  have hinfinity : digits.map Char.toLower ≠ "infinity".toList := hword rfl rfl
  have hnan : digits.map Char.toLower ≠ "nan".toList := hword rfl rfl
  simp only [namedDouble?, decide_eq_false hinf, decide_eq_false hinfinity, if_neg hnan]
  rfl

theorem whole_unsigned_of_digits (hdigits : ∀ c ∈ digits, c.isDigit = true) (hne : digits ≠ [])
    (negative : Bool) :
    Scanner.whole (unsigned negative) digits = some (.ofDecimal negative (natOfDigits digits) 0) := by
  have htake : digits.takeWhile Char.isDigit = digits := by simpa using hdigits
  have hdrop : digits.dropWhile Char.isDigit = [] := by simpa using hdigits
  simp [Scanner.whole, unsigned, Scanner.run, Scanner.maybe, fractionDigits, exponent, Scanner.word,
    Scanner.strip?, Scanner.char, htake, hdrop, hne, bind, StateT.bind, pure, StateT.pure]

end Numeral

namespace Double

open Numeral

theorem ofDecimal_zero {n : Nat} (hn : n ≤ maxUnsigned) (negative : Bool) :
    ofDecimal negative n 0 = ofRatio negative n 1 := by
  by_cases hzero : n = 0
  · rw [hzero, ofRatio_zero]
    rfl
  · have hlength : decimalLength n ≤ 20 :=
      (Nat.length_toDigits_le_iff (by decide) (by decide)).mpr (Nat.lt_of_le_of_lt hn (by decide))
    have hsmall : ¬ (n = 0 ∨ (decimalLength n : Int) + 0 < -330) := by omega
    have hlarge : ¬ (330 : Int) < decimalLength n + 0 := by omega
    simp only [ofDecimal, if_neg hsmall, if_neg hlarge]
    rw [Nat.pow_eq, Nat.pow_zero, Nat.mul_one]

theorem read?_toDigits {n : Nat} (hn : n ≤ maxUnsigned) :
    read? (Nat.toDigits 10 n) = some (ofRatio false n 1) := by
  have hdigits (c : Char) (hc : c ∈ Nat.toDigits 10 n) := isDigit_of_mem_toDigits hc
  rw [read?, sign_of_digits hdigits]
  simp [namedDouble?_of_digits hdigits, whole_unsigned_of_digits hdigits Nat.toDigits_ne_nil,
    natOfDigits_toDigits, ofDecimal_zero hn]

theorem read?_minus_toDigits {n : Nat} (hn : n ≤ maxUnsigned) :
    read? ('-' :: Nat.toDigits 10 n) = some (ofRatio true n 1) := by
  have hdigits (c : Char) (hc : c ∈ Nat.toDigits 10 n) := isDigit_of_mem_toDigits hc
  simp [read?, sign, namedDouble?_of_digits hdigits,
    whole_unsigned_of_digits hdigits Nat.toDigits_ne_nil, natOfDigits_toDigits, ofDecimal_zero hn]

theorem toList_toString (n : Int) : (toString n).toList =
    if n < 0 then '-' :: Nat.toDigits 10 n.natAbs else Nat.toDigits 10 n.natAbs := by
  rw [Int.toString_eq_repr, Int.repr_eq_if]
  by_cases hn : n < 0
  · have habs : (-n).toNat = n.natAbs := by omega
    rw [if_neg (by omega), if_pos hn, habs, String.toList_append, Nat.toList_repr]
    rfl
  · have habs : n.toNat = n.natAbs := by omega
    rw [if_pos (by omega), if_neg hn, habs, Nat.toList_repr]

theorem read?_toString {n : Int} (hn : IsWord n) : read? (toString n).toList = some (ofInt n) := by
  rw [toList_toString, ofInt]
  by_cases hneg : n < 0
  · rw [if_pos hneg, decide_eq_true hneg, read?_minus_toDigits hn.natAbs_le]
  · rw [if_neg hneg, decide_eq_false hneg, read?_toDigits hn.natAbs_le]

end Double

/-- The decimal form of an integer of 64 bits, as the text of a bound. -/
theorem Bound.read?_toString {n : Int} (hn : Double.IsWord n) :
    Bound.read? (toString n) = some (.number (.ofInt n)) := by
  have htrim : Text.trim (toString n).toList = (toString n).toList := by
    refine Text.trim_of_not_blank fun c hc => ?_
    have hdigits {c : Char} (hc : c ∈ Nat.toDigits 10 n.natAbs) : Text.isBlank c = false :=
      Path.isBlank_of_isDigit (Numeral.isDigit_of_mem_toDigits hc)
    rw [Double.toList_toString] at hc
    split at hc
    · rcases List.mem_cons.mp hc with rfl | hc
      · rfl
      · exact hdigits hc
    · exact hdigits hc
  rw [Bound.read?, htrim, Double.read?_toString hn]
  exact if_pos (Double.isFinite_ofInt hn)

end DocModel
