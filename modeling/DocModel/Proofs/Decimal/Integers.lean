import DocModel.Decimal.Reading
import DocModel.Proofs.Json.Finite
import Mathlib.Algebra.Group.Nat.Defs

/-!
Integers as doubles. The double nearest to an integer stands for an integer again: the nearest multiple of
the spacing that doubles have around it. This rounding keeps the order of integers but not their
differences, and up to two to the power of 53 it does nothing. The order of two integers as doubles is the
order of what they are rounded to.
-/

namespace DocModel

section RoundEven

variable {m n den : Nat}

theorem roundEven_mul_right (m n : Nat) {k : Nat} (hk : 0 < k) :
    roundEven (m * k) (n * k) = roundEven m n := by
  have hless : 2 * (m % n * k) < n * k ↔ 2 * (m % n) < n := by
    rw [← Nat.mul_assoc, Nat.mul_lt_mul_right hk]
  have hgreater : n * k < 2 * (m % n * k) ↔ n < 2 * (m % n) := by
    rw [← Nat.mul_assoc, Nat.mul_lt_mul_right hk]
  simp only [roundEven, Nat.mul_div_mul_right m n hk, Nat.mul_mod_mul_right, hless, hgreater]

/-- A whole ratio is not changed. -/
theorem roundEven_mul_self (m : Nat) (hden : 0 < den) : roundEven (m * den) den = m := by
  simp [roundEven, Nat.mul_div_cancel m hden, hden]

theorem roundEven_mono (hden : 0 < den) (hmn : m ≤ n) : roundEven m den ≤ roundEven n den := by
  refine Nat.le_of_not_lt fun hlt => ?_
  obtain ⟨_, hm⟩ := @roundEven_bounds m _ hden
  obtain ⟨hn, _⟩ := @roundEven_bounds n _ hden
  have hstep := Nat.mul_le_mul_right den (Nat.succ_le_of_lt hlt)
  -- Both ratios lie halfway between the same two numbers, so that they are one ratio.
  obtain rfl : m = n := by grind
  exact Nat.lt_irrefl _ hlt

/-- A ratio that is one half away from what it is rounded to is rounded to an even number. -/
theorem roundEven_of_tie (hden : 0 < den)
    (htie : 2 * (roundEven m den * den) = 2 * m + den ∨ 2 * (roundEven m den * den) + den = 2 * m) :
    roundEven m den % 2 = 0 := by
  have hdiv := Nat.div_add_mod' m den
  have hlt := Nat.mod_lt m hden
  unfold roundEven at *
  dsimp only at *
  by_cases hlow : 2 * (m % den) < den
  · rw [if_pos hlow] at htie
    omega
  · by_cases hhigh : den < 2 * (m % den)
    · rw [if_neg hlow, if_pos hhigh, Nat.add_one_mul (m / den)] at htie
      omega
    · rw [if_neg hlow, if_neg hhigh]
      omega

end RoundEven

/-- An integer is rounded to a nearest multiple of some distance, and to an even one where two are nearest. -/
structure IsRoundedTo (distance : Nat) (n r : Int) : Prop where
  multiple : (distance : Int) ∣ r
  nearest : 2 * (r - n).natAbs ≤ distance
  even : 2 * (r - n).natAbs = distance → (2 * distance : Int) ∣ r

theorem IsRoundedTo.neg {distance : Nat} {n r : Int} (hr : IsRoundedTo distance n r) :
    IsRoundedTo distance (-n) (-r) where
  multiple := Int.dvd_neg.mpr hr.multiple
  nearest := by
    have hnearest := hr.nearest
    omega
  even htie := Int.dvd_neg.mpr (hr.even (by omega))

namespace Double

/-- The distance of two neighbouring doubles in the binade of a natural number, or one where it is smaller
than that. -/
def spacing (n : Nat) : Nat := 2 ^ (n.log2 + 1 - precision)

/-- The natural number that is nearest to a given one among those that doubles stand for. -/
def roundedNat (n : Nat) : Nat := roundEven n (spacing n) * spacing n

/-- The integer that is nearest to a given one among those that doubles stand for. -/
def rounded (n : Int) : Int := signed (decide (n < 0)) (roundedNat n.natAbs)

/-- An integer that fits into 64 bits, with or without a sign. -/
def IsWord (n : Int) : Prop := Numeral.minSigned ≤ n ∧ n ≤ Numeral.maxUnsigned

instance (n : Int) : Decidable (IsWord n) := inferInstanceAs (Decidable (_ ∧ _))

section Rounding

variable {m n : Nat}

theorem spacing_pos (n : Nat) : 0 < spacing n := Nat.two_pow_pos _

theorem roundedNat_bounds (n : Nat) :
    2 * n ≤ 2 * roundedNat n + spacing n ∧ 2 * roundedNat n ≤ 2 * n + spacing n := by
  obtain ⟨hlow, hhigh⟩ := @roundEven_bounds n _ (spacing_pos n)
  rw [Nat.add_mul, Nat.mul_assoc, Nat.one_mul] at hlow
  rw [Nat.mul_assoc] at hhigh
  exact ⟨hlow, hhigh⟩

/-- Multiples of the spacing are not crossed. -/
theorem roundedNat_le {k : Nat} (hn : n ≤ k * spacing n) : roundedNat n ≤ k * spacing n := by
  have hround := roundEven_mono (spacing_pos n) hn
  rw [roundEven_mul_self k (spacing_pos n)] at hround
  exact Nat.mul_le_mul_right _ hround

theorem le_roundedNat {k : Nat} (hn : k * spacing n ≤ n) : k * spacing n ≤ roundedNat n := by
  have hround := roundEven_mono (spacing_pos n) hn
  rw [roundEven_mul_self k (spacing_pos n)] at hround
  exact Nat.mul_le_mul_right _ hround

theorem roundedNat_zero : roundedNat 0 = 0 := rfl

theorem two_pow_eq_mul_spacing {k : Nat} (hk : n.log2 + 1 - precision ≤ k) :
    2 ^ k = 2 ^ (k - (n.log2 + 1 - precision)) * spacing n := by
  rw [spacing, ← Nat.pow_add, Nat.sub_add_cancel hk]

/-- A number is rounded within its binade, to the upper end of it at most. -/
theorem two_pow_log2_le_roundedNat (hn : n ≠ 0) : 2 ^ n.log2 ≤ roundedNat n := by
  have hmultiple := two_pow_eq_mul_spacing (show n.log2 + 1 - precision ≤ n.log2 by
    simp only [precision]
    omega)
  rw [hmultiple]
  refine le_roundedNat ?_
  rw [← hmultiple]
  exact Nat.log2_self_le hn

theorem roundedNat_le_two_pow (n : Nat) : roundedNat n ≤ 2 ^ (n.log2 + 1) := by
  have hmultiple := two_pow_eq_mul_spacing (Nat.sub_le (n.log2 + 1) precision)
  rw [hmultiple]
  refine roundedNat_le ?_
  rw [← hmultiple]
  exact Nat.le_of_lt Nat.lt_log2_self

theorem log2_mono (hmn : m ≤ n) : m.log2 ≤ n.log2 := by
  by_cases hm : m = 0
  · rw [hm]
    exact Nat.zero_le _
  · exact (Nat.le_log2 (by omega)).mpr (Nat.le_trans (Nat.log2_self_le hm) hmn)

theorem roundedNat_mono (hmn : m ≤ n) : roundedNat m ≤ roundedNat n := by
  by_cases hlog : m.log2 = n.log2
  · have hspacing : spacing m = spacing n := by rw [spacing, hlog, spacing]
    rw [roundedNat, roundedNat, hspacing]
    exact Nat.mul_le_mul_right _ (roundEven_mono (spacing_pos n) hmn)
  · -- A power of two stands between the two numbers.
    have hlog' := log2_mono hmn
    have hn : n ≠ 0 := by
      rintro rfl
      rw [Nat.le_zero.mp hmn] at hlog
      exact hlog rfl
    calc
      roundedNat m ≤ 2 ^ (m.log2 + 1) := roundedNat_le_two_pow m
      _ ≤ 2 ^ n.log2 := Nat.pow_le_pow_right (by decide) (by omega)
      _ ≤ roundedNat n := two_pow_log2_le_roundedNat hn

theorem roundedNat_eq_self (hn : n ≤ 2 ^ precision) : roundedNat n = n := by
  by_cases hlt : n < 2 ^ precision
  · have hlog : n.log2 + 1 ≤ precision := by
      by_cases hzero : n = 0
      · rw [hzero]
        decide
      · exact (Nat.log2_lt hzero).mpr hlt
    have hspacing : spacing n = 1 := by rw [spacing, Nat.sub_eq_zero_of_le hlog, Nat.pow_zero]
    have hround := roundEven_mul_self n Nat.one_pos
    rw [roundedNat, hspacing, Nat.mul_one]
    rwa [Nat.mul_one] at hround
  · obtain rfl : n = 2 ^ precision := by omega
    rfl

/-- The numbers of 64 bits are at most 2048 apart as doubles. -/
theorem spacing_le (hn : n ≤ Numeral.maxUnsigned) : spacing n ≤ 2048 := by
  have hlog : n.log2 < 64 := by
    by_cases hzero : n = 0
    · rw [hzero]
      decide
    · exact (Nat.log2_lt hzero).mpr (Nat.lt_of_le_of_lt hn (by decide))
  exact Nat.pow_le_pow_right (by decide : 0 < 2) (show n.log2 + 1 - precision ≤ 11 by
    simp only [precision]
    omega)

end Rounding

section Place

variable {n : Nat}

/-- A mantissa one past the largest is carried over to the next scale without a change of the value. -/
theorem place?_ofMantissa {scale : Nat} (hscale : scale < maxScale) (negative : Bool) (mantissa : Nat) :
    (ofMantissa negative mantissa scale).place? = some (signed negative (mantissa * 2 ^ scale)) := by
  have hscale' : ¬ maxScale < scale + 1 := by omega
  by_cases hcarry : mantissa = Nat.pow 2 precision
  · have hvalue : Nat.pow 2 (precision - 1) * 2 ^ (scale + 1) = mantissa * 2 ^ scale := by
      rw [hcarry, Nat.pow_succ', ← Nat.mul_assoc]
      rfl
    simp only [ofMantissa, if_pos hcarry, if_neg hscale', place?, Nat.shiftLeft_eq, hvalue]
  · simp only [ofMantissa, if_neg hcarry, if_neg (Nat.lt_asymm hscale), place?, Nat.shiftLeft_eq]

theorem log2_mul_two_pow (hn : n ≠ 0) (k : Nat) : (n * 2 ^ k).log2 = n.log2 + k := by
  have hpos := Nat.two_pow_pos k
  refine (Nat.log2_eq_iff (Nat.mul_ne_zero hn (Nat.ne_of_gt hpos))).mpr ⟨?_, ?_⟩
  · rw [Nat.pow_add]
    exact Nat.mul_le_mul_right _ (Nat.log2_self_le hn)
  · rw [Nat.add_right_comm, Nat.pow_add]
    exact Nat.mul_lt_mul_of_pos_right Nat.lt_log2_self hpos

/-- Rounding to a mantissa, in units that are small enough for it, is rounding to the spacing. -/
theorem roundEven_units (n : Nat) {k scale : Nat} (hk : precision ≤ k)
    (hscale : scale = n.log2 + k + 1 - precision) :
    roundEven (n * 2 ^ k) (2 ^ scale) * 2 ^ scale = roundedNat n * 2 ^ k := by
  by_cases hlog : precision ≤ n.log2 + 1
  · obtain rfl : scale = n.log2 + 1 - precision + k := by omega
    rw [Nat.pow_add, ← spacing, roundEven_mul_right n _ (Nat.two_pow_pos k), ← Nat.mul_assoc, ← roundedNat]
  · have hsmall : n ≤ 2 ^ precision := by
      refine Nat.le_of_lt (Nat.lt_of_lt_of_le Nat.lt_log2_self ?_)
      exact Nat.pow_le_pow_right (by decide) (by omega)
    obtain ⟨more, rfl⟩ : ∃ more, k = more + scale := ⟨k - scale, by omega⟩
    rw [roundedNat_eq_self hsmall, Nat.pow_add, ← Nat.mul_assoc,
      roundEven_mul_self _ (Nat.two_pow_pos scale)]

theorem ofRatio_zero (negative : Bool) : ofRatio negative 0 1 = finite negative 0 0 := by
  simp [ofRatio, roundEven, ofMantissa, precision, maxScale]

theorem place?_ofRatio_one (hn : n ≤ Numeral.maxUnsigned) (negative : Bool) :
    (ofRatio negative n 1).place? = some (signed negative (roundedNat n * 2 ^ fraction)) := by
  by_cases hzero : n = 0
  · rw [hzero, ofRatio_zero, place?, Nat.zero_shiftLeft, roundedNat_zero, Nat.zero_mul]
  · simp only [ofRatio, Nat.shiftLeft_eq, Nat.div_one, Nat.one_mul]
    have hlog : n.log2 < 64 := (Nat.log2_lt hzero).mpr (Nat.lt_of_le_of_lt hn (by decide))
    rw [log2_mul_two_pow hzero, place?_ofMantissa, roundEven_units n (by decide) rfl]
    simp only [fraction, precision, maxScale]
    omega

end Place

section Integers

variable {x n : Int}

theorem signed_mul (negative : Bool) (m k : Nat) : signed negative (m * k) = signed negative m * k := by
  cases negative with
  | false => rfl
  | true =>
    rw [signed, if_pos rfl, signed, if_pos rfl, Int.natCast_mul, Int.neg_mul]

theorem IsWord.natAbs_le (hn : IsWord n) : n.natAbs ≤ Numeral.maxUnsigned := by
  unfold IsWord Numeral.minSigned Numeral.maxUnsigned at hn
  unfold Numeral.maxUnsigned
  omega

theorem place?_ofInt (hn : IsWord n) : (ofInt n).place? = some (rounded n * (2 ^ fraction : Nat)) := by
  rw [ofInt, place?_ofRatio_one hn.natAbs_le, signed_mul, rounded]

theorem isFinite_ofInt (hn : IsWord n) : (ofInt n).isFinite = true :=
  isFinite_ofRatio_one hn.natAbs_le _

/-- The doubles of two integers are equal exactly if both integers are rounded to the same one. -/
theorem equal_ofInt_iff (hx : IsWord x) (hn : IsWord n) :
    (ofInt x).equal (ofInt n) = true ↔ rounded x = rounded n := by
  have hunits : ((2 ^ fraction : Nat) : Int) ≠ 0 := Int.natCast_ne_zero.mpr (Nat.ne_of_gt (Nat.two_pow_pos _))
  rw [equal_iff, and_iff_right (ofInt_ne_nan x), place?_ofInt hx, place?_ofInt hn, Option.some_inj,
    Int.mul_eq_mul_right_iff hunits]

theorem less_ofInt_iff (hx : IsWord x) (hn : IsWord n) :
    (ofInt x).less (ofInt n) = true ↔ rounded x < rounded n := by
  have hunits : (0 : Int) < (2 ^ fraction : Nat) := Int.natCast_pos.mpr (Nat.two_pow_pos _)
  rw [less, place?_ofInt hx, place?_ofInt hn]
  dsimp only
  rw [decide_eq_true_iff, Int.mul_lt_mul_right hunits]

theorem rounded_natCast (m : Nat) : rounded m = roundedNat m := by
  rw [rounded, decide_eq_false (by omega), Int.natAbs_natCast]
  rfl

theorem rounded_neg (n : Int) : rounded (-n) = -rounded n := by
  unfold rounded signed
  rw [Int.natAbs_neg]
  rcases Int.lt_trichotomy n 0 with hneg | rfl | hpos
  · have hpos : ¬ 0 < n := by omega
    simp [hneg, hpos]
  · rfl
  · have hneg : ¬ n < 0 := by omega
    simp [hneg, hpos]

theorem rounded_mono (hxn : x ≤ n) : rounded x ≤ rounded n := by
  obtain ⟨i, rfl | rfl⟩ := x.eq_nat_or_neg <;> obtain ⟨k, rfl | rfl⟩ := n.eq_nat_or_neg <;>
    simp only [rounded_neg, rounded_natCast]
  · exact Int.ofNat_le.mpr (roundedNat_mono (Int.ofNat_le.mp hxn))
  · obtain rfl : i = 0 := by omega
    obtain rfl : k = 0 := by omega
    exact Int.le_refl _
  · omega
  · have hki := roundedNat_mono (show k ≤ i by omega)
    omega

theorem rounded_eq_self (hn : n.natAbs ≤ 2 ^ precision) : rounded n = n := by
  obtain ⟨k, rfl | rfl⟩ := n.eq_nat_or_neg
  · rw [rounded_natCast, roundedNat_eq_self (by omega)]
  · rw [rounded_neg, rounded_natCast, roundedNat_eq_self (by omega)]

theorem isRoundedTo_roundedNat (k : Nat) : IsRoundedTo (spacing k) k (roundedNat k) where
  multiple := Int.natCast_dvd_natCast.mpr (Nat.dvd_mul_left ..)
  nearest := by
    obtain ⟨hlow, hhigh⟩ := roundedNat_bounds k
    omega
  even htie := by
    have heven : roundEven k (spacing k) % 2 = 0 := by
      refine roundEven_of_tie (spacing_pos k) ?_
      rw [← roundedNat]
      omega
    exact Int.natCast_dvd_natCast.mpr (Nat.mul_dvd_mul_right (Nat.dvd_of_mod_eq_zero heven) _)

/-- What an integer is rounded to, said without the way in which it is computed. -/
theorem isRoundedTo_rounded (n : Int) : IsRoundedTo (spacing n.natAbs) n (rounded n) := by
  obtain ⟨k, rfl | rfl⟩ := n.eq_nat_or_neg
  · rw [rounded_natCast, Int.natAbs_natCast]
    exact isRoundedTo_roundedNat k
  · rw [rounded_neg, rounded_natCast, Int.natAbs_neg, Int.natAbs_natCast]
    exact (isRoundedTo_roundedNat k).neg

theorem rounded_bounds (hn : IsWord n) : n - 1024 ≤ rounded n ∧ rounded n ≤ n + 1024 := by
  have hnearest := (isRoundedTo_rounded n).nearest
  have hspacing := spacing_le hn.natAbs_le
  omega

/-- Two integers that rounding keeps apart, unless they are the same: one of them is small enough for all
integers around it to be doubles, or they are far from each other. -/
def KeptApart (x n : Int) : Prop :=
  x.natAbs < 2 ^ precision ∨ n.natAbs < 2 ^ precision ∨ 2048 < (x - n).natAbs

instance (x n : Int) : Decidable (KeptApart x n) := inferInstanceAs (Decidable (_ ∨ _ ∨ _))

theorem KeptApart.symm (hxn : KeptApart x n) : KeptApart n x := by
  unfold KeptApart at *
  omega

theorem KeptApart.rounded_lt_rounded (hxn : KeptApart x n) (hx : IsWord x) (hn : IsWord n)
    (hlt : x < n) : rounded x < rounded n := by
  rcases hxn with hsmall | hsmall | hfar
  · have hnext : rounded (x + 1) ≤ rounded n := rounded_mono (Int.add_one_le_of_lt hlt)
    rw [rounded_eq_self (n := x + 1) (by omega)] at hnext
    rw [rounded_eq_self (Nat.le_of_lt hsmall)]
    omega
  · have hprevious : rounded x ≤ rounded (n - 1) := rounded_mono (by omega)
    rw [rounded_eq_self (n := n - 1) (by omega)] at hprevious
    rw [rounded_eq_self (Nat.le_of_lt hsmall)]
    omega
  · obtain ⟨_, hx⟩ := rounded_bounds hx
    obtain ⟨hn, _⟩ := rounded_bounds hn
    omega

theorem KeptApart.rounded_lt_iff (hxn : KeptApart x n) (hx : IsWord x) (hn : IsWord n) :
    rounded x < rounded n ↔ x < n := by
  refine ⟨fun hlt => Int.lt_of_not_ge fun hnx => ?_, hxn.rounded_lt_rounded hx hn⟩
  have hle := rounded_mono hnx
  omega

theorem KeptApart.rounded_eq_iff (hxn : KeptApart x n) (hx : IsWord x) (hn : IsWord n) :
    rounded x = rounded n ↔ x = n := by
  have hless := hxn.rounded_lt_iff hx hn
  have hgreater := hxn.symm.rounded_lt_iff hn hx
  omega

end Integers

end Double

end DocModel
