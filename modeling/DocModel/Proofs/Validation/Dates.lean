import DocModel.Proofs.Decimal.Reading
import DocModel.Proofs.Validation.Constraints

/-!
Written dates. The text of a day is read back as this day, wherever a date is read: zeros before a number do
not change it, and the dash behind a number ends the run of its digits.
-/

namespace DocModel

theorem Scanner.bind_of_eq_some {α β : Type} {p : Scanner α} {f : α → Scanner β} {s rest : List Char}
    {a : α} (hread : p s = some (a, rest)) : (p >>= f) s = f a rest := by
  change (p s).bind _ = _
  rw [hread]
  rfl

namespace Calendar

theorem daysIn_le (year : Int) (month : Nat) : daysIn year month ≤ 31 := by
  unfold daysIn
  split
  · split <;> omega
  all_goals omega

end Calendar

namespace Date

open Numeral

theorem month_le (d : Date) : d.month ≤ 12 := d.exists_day.2.2.2.1

theorem day_le (d : Date) : d.day ≤ 31 :=
  d.exists_day.2.2.2.2.2.trans (Calendar.daysIn_le d.year d.month)

section Padding

variable {width n : Nat} {rest : List Char}

theorem natOfDigits_zeros_append (count : Nat) (digits : List Char) :
    natOfDigits (Decimal.zeros count ++ digits) = natOfDigits digits := by
  induction count with
  | zero => rfl
  | succ count ih => exact ih

theorem natOfDigits_padded (width n : Nat) : natOfDigits (padded width n) = n :=
  (natOfDigits_zeros_append _ _).trans (natOfDigits_toDigits n)

theorem isDigit_of_mem_padded {c : Char} (hc : c ∈ padded width n) : c.isDigit = true := by
  rcases List.mem_append.mp hc with hzero | hdigit
  · rw [List.eq_of_mem_replicate hzero]
    rfl
  · exact isDigit_of_mem_toDigits hdigit

theorem padded_ne_nil (width n : Nat) : padded width n ≠ [] :=
  List.append_ne_nil_of_right_ne_nil _ Nat.toDigits_ne_nil

theorem isDigit_of_padded_append {c : Char} {more : List Char}
    (hcons : padded width n ++ rest = c :: more) : c.isDigit = true := by
  obtain ⟨hnil, -⟩ | ⟨digits, hdigits, -⟩ := List.append_eq_cons_iff.mp hcons
  · exact absurd hnil (padded_ne_nil width n)
  · exact isDigit_of_mem_padded (hdigits ▸ List.mem_cons_self)

theorem length_padded_le (hwidth : 0 < width) (hn : n < 10 ^ width) :
    (padded width n).length ≤ width := by
  have hdigits : (Decimal.digitsOf n).length ≤ width :=
    (Nat.length_toDigits_le_iff (by decide) hwidth).mpr hn
  rw [padded, List.length_append, Decimal.zeros, List.length_replicate]
  omega

theorem run1_padded (hrest : Text.Stops Char.isDigit rest) :
    Scanner.run1 Char.isDigit (padded width n ++ rest) = some (padded width n, rest) := by
  have hdigits (c : Char) (hc : c ∈ padded width n) := isDigit_of_mem_padded hc
  rw [Scanner.run1, Text.takeWhile_append_of_stops hdigits hrest,
    Text.dropWhile_append_of_stops hdigits hrest]
  split
  · next hnil => exact absurd hnil (padded_ne_nil width n)
  · rfl

theorem upToDigits_padded (hwidth : 0 < width) (hn : n < 10 ^ width)
    (hrest : Text.Stops Char.isDigit rest) :
    upToDigits width (padded width n ++ rest) = some (n, rest) := by
  have hlength := length_padded_le hwidth hn
  have hstops : Text.Stops Char.isDigit (rest.take (width - (padded width n).length)) := by
    intro c hc
    cases hcount : width - (padded width n).length with
    | zero => simp [hcount] at hc
    | succ count => exact hrest c (by simpa [hcount, List.head?_take] using hc)
  have htake : ((padded width n ++ rest).take width).takeWhile Char.isDigit = padded width n := by
    rw [List.take_append, List.take_of_length_le hlength]
    exact Text.takeWhile_append_of_stops (fun c hc => isDigit_of_mem_padded hc) hstops
  rw [upToDigits, htake]
  split
  · next hnil => exact absurd hnil (padded_ne_nil width n)
  · rw [natOfDigits_padded, List.drop_left]

end Padding

section Written

variable {rest : List Char}

/-- The first character of a year says how it is read: a sign of either kind, or a digit. -/
theorem yearNumber_yearText (year : Int) (hrest : Text.Stops Char.isDigit rest) :
    yearNumber (yearText year ++ rest) = some (year, rest) := by
  rw [yearText]
  split
  · next hnegative =>
    have hyear : -(year.natAbs : Int) = year := by omega
    change (Scanner.run1 Char.isDigit (padded 4 year.natAbs ++ rest)).map _ = _
    simp only [run1_padded hrest, Option.map_some, natOfDigits_padded, hyear]
  · next hnonneg =>
    have hyear : (year.natAbs : Int) = year := by omega
    split
    · next hlarge =>
      change (Scanner.run1 Char.isDigit (padded 4 year.natAbs ++ rest)).map _ = _
      simp only [run1_padded hrest, Option.map_some, natOfDigits_padded, hyear]
    · next hsmall =>
      have hread := upToDigits_padded (by decide) (show year.natAbs < 10 ^ 4 by omega) hrest
      unfold yearNumber
      split
      · next hcons => exact absurd (isDigit_of_padded_append hcons) (by decide)
      · next hcons => exact absurd (isDigit_of_padded_append hcons) (by decide)
      · simp only [hread, Option.map_some, hyear]

theorem isBlank_of_mem_padded {width n : Nat} {c : Char} (hc : c ∈ padded width n) :
    Text.isBlank c = false :=
  Path.isBlank_of_isDigit (isDigit_of_mem_padded hc)

theorem isBlank_of_mem_yearText {year : Int} {c : Char} (hc : c ∈ yearText year) :
    Text.isBlank c = false := by
  unfold yearText at hc
  split at hc
  · rcases List.mem_cons.mp hc with rfl | hc
    · rfl
    · exact isBlank_of_mem_padded hc
  · split at hc
    · rcases List.mem_cons.mp hc with rfl | hc
      · rfl
      · exact isBlank_of_mem_padded hc
    · exact isBlank_of_mem_padded hc

theorem toList_text (d : Date) : d.text.toList =
    yearText d.year ++ '-' :: (padded 2 d.month ++ '-' :: padded 2 d.day) := by
  rw [text, String.toList_ofList, List.append_assoc]
  rfl

theorem isBlank_of_mem_text {d : Date} {c : Char} (hc : c ∈ d.text.toList) : Text.isBlank c = false := by
  simp only [toList_text, List.mem_append, List.mem_cons] at hc
  rcases hc with hyear | rfl | hmonth | rfl | hday
  · exact isBlank_of_mem_yearText hyear
  · rfl
  · exact isBlank_of_mem_padded hmonth
  · rfl
  · exact isBlank_of_mem_padded hday

theorem skipBlanks_suffix {d : Date} {s : List Char} (hs : s <:+ d.text.toList) :
    skipBlanks s = some ((), s) := by
  have hblank (c : Char) (hc : c ∈ s) := isBlank_of_mem_text (hs.mem hc)
  rw [skipBlanks, Text.trimStart_eq_self fun c hc => hblank c (List.mem_of_mem_head? hc)]

theorem stops_dash (more : List Char) : Text.Stops Char.isDigit ('-' :: more) := by
  intro c hc
  cases hc
  rfl

theorem word_dash (more : List Char) : Scanner.word "-" ('-' :: more) = some ((), more) := by
  simp [Scanner.word, Scanner.strip?]

theorem loose_text (d : Date) : loose d.text.toList = some ((d.year, d.month, d.day), []) := by
  have hyear := yearNumber_yearText d.year (stops_dash (padded 2 d.month ++ '-' :: padded 2 d.day))
  have hmonth : upToDigits 2 (padded 2 d.month ++ '-' :: padded 2 d.day) =
      some (d.month, '-' :: padded 2 d.day) := by
    have hle := d.month_le
    exact upToDigits_padded (by decide) (by omega) (stops_dash _)
  have hday : upToDigits 2 (padded 2 d.day) = some (d.day, []) := by
    have hle := d.day_le
    have hend : Text.Stops Char.isDigit [] := fun c hc => by cases hc
    have hread := upToDigits_padded (by decide) (show d.day < 10 ^ 2 by omega) hend
    rwa [List.append_nil] at hread
  have hbehindYear : padded 2 d.month ++ '-' :: padded 2 d.day <:+ d.text.toList := by
    rw [toList_text]
    exact (List.suffix_cons _ _).trans (List.suffix_append _ _)
  have hbehindMonth : padded 2 d.day <:+ d.text.toList :=
    ((List.suffix_cons _ _).trans (List.suffix_append _ _)).trans hbehindYear
  unfold loose
  rw [Scanner.bind_of_eq_some (skipBlanks_suffix List.suffix_rfl), toList_text,
    Scanner.bind_of_eq_some hyear, Scanner.bind_of_eq_some (word_dash _),
    Scanner.bind_of_eq_some (skipBlanks_suffix hbehindYear), Scanner.bind_of_eq_some hmonth,
    Scanner.bind_of_eq_some (word_dash _),
    Scanner.bind_of_eq_some (skipBlanks_suffix hbehindMonth), Scanner.bind_of_eq_some hday]
  rfl

/-- A written date is read back. -/
theorem read?_text (d : Date) : read? d.text = some d := by
  rw [read?, Scanner.whole, loose_text]
  simp [of?, d.exists_day]

theorem trimmed_text (d : Date) : Text.trimmed d.text = d.text := by
  rw [Text.trimmed, Text.trim_of_not_blank fun c hc => isBlank_of_mem_text hc, String.ofList_toList]

end Written

end Date

namespace Validation

variable {d day limit : Date}

/-- Among the dates, the text of a day is this day only. -/
theorem hasDate_text_iff : HasDate (.str d.text) day ↔ day = d := by
  have hread : Date.read? (Text.trimmed d.text) = some d := by
    rw [Date.trimmed_text, Date.read?_text]
  constructor
  · rintro ⟨hday⟩
    rw [hread] at hday
    exact (Option.some_inj.mp hday).symm
  · rintro rfl
    exact .text hread

/-- A written day is below a date exactly if the day comes before it. -/
theorem isBelow_text_iff : IsBelow (.str d.text) (.date limit) ↔ d.Before limit := by
  refine ⟨fun hbelow => ?_, .date (hasDate_text_iff.mpr rfl)⟩
  cases hbelow with
  | date hvalue hbefore => rwa [hasDate_text_iff.mp hvalue] at hbefore

theorem isAbove_text_iff : IsAbove (.str d.text) (.date limit) ↔ limit.Before d := by
  refine ⟨fun habove => ?_, .date (hasDate_text_iff.mpr rfl)⟩
  cases habove with
  | date hvalue hbefore => rwa [hasDate_text_iff.mp hvalue] at hbefore

end Validation

end DocModel
