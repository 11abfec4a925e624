import DocModel.Text.Blank
import Mathlib

/-!
Runs of characters, and what trimming leaves alone. A run ends where the rest of a text does not go on
with it; a text whose two ends are not blank is trimmed already, and so is a text of letters, digits and
underscores. Trimming takes blanks from the two ends of a text, and nothing else.
-/

namespace DocModel.Text

/-- Whether a text does not go on with characters that pass a test. -/
def Stops (test : Char → Bool) (rest : List Char) : Prop := ∀ c ∈ rest.head?, test c = false

section Runs

variable {test : Char → Bool} {run rest : List Char}

theorem takeWhile_append_of_stops (hrun : ∀ c ∈ run, test c = true) (hrest : Stops test rest) :
    (run ++ rest).takeWhile test = run := by
  rw [List.takeWhile_append_of_pos hrun]
  cases rest with
  | nil => simp
  | cons c rest => simp [hrest c rfl]

theorem dropWhile_append_of_stops (hrun : ∀ c ∈ run, test c = true) (hrest : Stops test rest) :
    (run ++ rest).dropWhile test = rest := by
  rw [List.dropWhile_append_of_pos hrun]
  cases rest with
  | nil => rfl
  | cons c rest => simp [hrest c rfl]

theorem stops_dropWhile (test : Char → Bool) (s : List Char) : Stops test (s.dropWhile test) := by
  intro c hc
  have hhead := List.head?_dropWhile_not test s
  rwa [Option.mem_def.mp hc] at hhead

end Runs

theorem trimStart_eq_self {s : List Char} (hs : Stops isBlank s) : trimStart s = s := by
  have hrun : ∀ c ∈ ([] : List Char), isBlank c = true := nofun
  exact dropWhile_append_of_stops hrun hs

/-- A text that neither begins nor ends with a blank is trimmed. -/
theorem trim_eq_self {s : List Char} (hfirst : Stops isBlank s) (hlast : Stops isBlank s.reverse) :
    trim s = s := by
  rw [trim, trimStart_eq_self hfirst, trimEnd, ← trimStart, trimStart_eq_self hlast,
    List.reverse_reverse]

theorem trim_of_not_blank {s : List Char} (hs : ∀ c ∈ s, isBlank c = false) : trim s = s := by
  refine trim_eq_self (fun c hc => hs c (List.mem_of_mem_head? hc)) fun c hc => ?_
  exact hs c (List.mem_reverse.mp (List.mem_of_mem_head? hc))

section BlankRuns

/-- A text of blanks, such as may stand around another one. -/
def IsBlankRun (s : List Char) : Prop := ∀ c ∈ s, isBlank c = true

theorem isBlankRun_nil : IsBlankRun [] := List.forall_mem_nil _

theorem IsBlankRun.trimStart_append {front : List Char} (hfront : IsBlankRun front) (s : List Char) :
    trimStart (front ++ s) = trimStart s :=
  List.dropWhile_append_of_pos hfront

theorem IsBlankRun.reverse {s : List Char} (hs : IsBlankRun s) : IsBlankRun s.reverse :=
  fun c hc => hs c (List.mem_reverse.mp hc)

theorem IsBlankRun.trimEnd_append {back : List Char} (hback : IsBlankRun back) (s : List Char) :
    trimEnd (s ++ back) = trimEnd s := by
  have hdrop := hback.reverse.trimStart_append s.reverse
  rw [trimStart, trimStart] at hdrop
  rw [trimEnd, List.reverse_append, hdrop, trimEnd]

theorem IsBlankRun.trim_append {front : List Char} (hfront : IsBlankRun front) (s : List Char) :
    trim (front ++ s) = trim s := by
  rw [trim, hfront.trimStart_append, trim]

theorem IsBlankRun.trim_append_right {back : List Char} (hback : IsBlankRun back) (s : List Char) :
    trim (s ++ back) = trim s := by
  have hnone : trimStart back = [] := List.dropWhile_eq_nil_iff.mpr hback
  rw [trim, trimStart, List.dropWhile_append]
  cases hs : (s.dropWhile isBlank).isEmpty with
  | true =>
    rw [if_pos rfl, ← trimStart, hnone, trim, trimStart, List.isEmpty_iff.mp hs]
  | false =>
    rw [if_neg Bool.false_ne_true, hback.trimEnd_append, trim, trimStart]

/-- A text is what trimming leaves with blanks around it. -/
theorem exists_trim (s : List Char) :
    ∃ front back, IsBlankRun front ∧ IsBlankRun back ∧ s = front ++ trim s ++ back := by
  refine ⟨s.takeWhile isBlank, ((trimStart s).reverse.takeWhile isBlank).reverse,
    fun c hc => List.mem_takeWhile_imp hc,
    fun c hc => List.mem_takeWhile_imp (List.mem_reverse.mp hc), ?_⟩
  rw [trim, trimEnd, List.append_assoc, ← List.reverse_append, List.takeWhile_append_dropWhile,
    List.reverse_reverse, trimStart, List.takeWhile_append_dropWhile]

/-- A trimmed text does not end with a blank. -/
theorem stops_reverse_trim (s : List Char) : Stops isBlank (trim s).reverse := by
  rw [trim, trimEnd, List.reverse_reverse]
  exact stops_dropWhile _ _

/-- A trimmed text does not begin with a blank. -/
theorem stops_trim (s : List Char) : Stops isBlank (trim s) := by
  intro c hc
  have hparts := List.takeWhile_append_dropWhile (p := isBlank) (l := (trimStart s).reverse)
  have hstart : trimStart s = trim s ++ ((trimStart s).reverse.takeWhile isBlank).reverse := by
    rw [trim, trimEnd, ← List.reverse_append, hparts, List.reverse_reverse]
  have hstops := stops_dropWhile isBlank s c
  rw [← trimStart, hstart, List.head?_append, Option.mem_def.mp hc] at hstops
  exact hstops rfl

theorem trim_trim (s : List Char) : trim (trim s) = trim s :=
  trim_eq_self (stops_trim s) (stops_reverse_trim s)

theorem trim_sublist (s : List Char) : (trim s).Sublist s := by
  obtain ⟨front, back, _, _, hparts⟩ := exists_trim s
  have hinfix : trim s <:+: s := ⟨front, back, hparts.symm⟩
  exact hinfix.sublist

theorem trim_eq_nil_iff {s : List Char} : trim s = [] ↔ IsBlankRun s := by
  constructor
  · intro htrim
    obtain ⟨front, back, hfront, hback, hparts⟩ := exists_trim s
    rw [htrim, List.append_nil] at hparts
    rw [hparts]
    exact fun c hc => (List.mem_append.mp hc).elim (hfront c) (hback c)
  · intro hs
    have htrim := hs.trim_append []
    rwa [List.append_nil, trim_nil] at htrim

end BlankRuns

theorem mem_of_mem_trim {c : Char} {s : List Char} (hmem : c ∈ trim s) : c ∈ s := by
  have hstart := (List.dropWhile_sublist _).subset (List.mem_reverse.mp hmem)
  exact (List.dropWhile_sublist _).subset (List.mem_reverse.mp hstart)

theorem mem_dropWhile_of_neg {test : Char → Bool} {c : Char} (hc : test c = false) {s : List Char}
    (hmem : c ∈ s) : c ∈ s.dropWhile test := by
  rw [← List.takeWhile_append_dropWhile (p := test) (l := s)] at hmem
  refine (List.mem_append.mp hmem).resolve_left fun htaken => ?_
  rw [List.mem_takeWhile_imp htaken] at hc
  cases hc

/-- Trimming keeps what is not blank. -/
theorem mem_trim {c : Char} (hc : isBlank c = false) {s : List Char} (hmem : c ∈ s) : c ∈ trim s := by
  have hstart := mem_dropWhile_of_neg hc hmem
  exact List.mem_reverse.mpr (mem_dropWhile_of_neg hc (List.mem_reverse.mpr hstart))

theorem toNat_of_isBlank {c : Char} (hc : isBlank c = true) : c.toNat ≤ 32 ∨ 133 ≤ c.toNat := by
  simp only [isBlank, Bool.or_eq_true, Bool.and_eq_true, decide_eq_true_eq] at hc
  rcases hc with ((((((((((h | rfl) | rfl) | rfl) | rfl) | h) | rfl) | rfl) | rfl) | rfl) | rfl)
  any_goals decide
  · exact .inl (Nat.le_trans (UInt32.le_iff_toNat_le.mp h.2) (by decide))
  · exact .inr (Nat.le_trans (by decide) (UInt32.le_iff_toNat_le.mp h.1))

section WordChars

variable {c : Char} (hc : (c.isAlphanum || decide (c = '_')) = true)

include hc

/-- Letters, digits and underscores lie between zero and the small z. -/
theorem toNat_of_wordChar : 48 ≤ c.toNat ∧ c.toNat ≤ 122 := by
  simp only [Char.isAlphanum, Char.isAlpha, Char.isUpper, Char.isLower, Char.isDigit,
    Bool.or_eq_true, Bool.and_eq_true, decide_eq_true_eq, ge_iff_le,
    UInt32.le_iff_toNat_le] at hc
  rcases hc with (hletter | hdigit) | rfl
  · change (65 ≤ c.toNat ∧ c.toNat ≤ 90) ∨ (97 ≤ c.toNat ∧ c.toNat ≤ 122) at hletter
    omega
  · change 48 ≤ c.toNat ∧ c.toNat ≤ 57 at hdigit
    omega
  · decide

theorem isBlank_of_wordChar : isBlank c = false := by
  have hrange := toNat_of_wordChar hc
  cases hblank : isBlank c with
  | false => rfl
  | true =>
    have houtside := toNat_of_isBlank hblank
    omega

end WordChars

theorem trim_of_wordChars {s : List Char} (hs : ∀ c ∈ s, (c.isAlphanum || decide (c = '_')) = true) :
    trim s = s :=
  trim_of_not_blank fun c hc => isBlank_of_wordChar (hs c hc)

end DocModel.Text
