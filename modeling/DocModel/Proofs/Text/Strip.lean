import DocModel.Text.Strip
import Mathlib.Data.List.Basic
import Mathlib.Data.List.TakeWhile

/-!
What stripping does to each form of a text, and the induction that follows it. Every part that is removed
has a single closing character and at least one opening one, so that a text with more closing than
opening characters keeps one of them. What stands inside of the removed parts does not matter: a text and
its hollow form, in which only the brackets of these parts are left, are stripped to the same.
-/

namespace DocModel.Text

/-- A text without what stands inside of the parts that stripping removes. -/
def hollow (opening closing : Char) : List Char → List Char
  | [] => []
  | c :: rest =>
    if c = opening then
      if rest.contains closing then
        opening :: closing :: hollow opening closing (rest.dropWhile (· ≠ closing)).tail
      else c :: rest
    else c :: hollow opening closing rest
termination_by s => s.length
decreasing_by
  · have := (List.dropWhile_suffix (· ≠ closing) (l := rest)).length_le
    rw [List.length_tail, List.length_cons]
    omega
  · exact Nat.lt_succ_self _

section Strip

variable {opening closing : Char}

theorem strip_cons_of_ne {c : Char} (hc : c ≠ opening) (rest : List Char) :
    strip opening closing (c :: rest) = c :: strip opening closing rest := by
  rw [strip, if_neg hc]

theorem strip_append {front : List Char} (hfront : opening ∉ front) (rest : List Char) :
    strip opening closing (front ++ rest) = front ++ strip opening closing rest := by
  induction front with
  | nil => rfl
  | cons c front ih =>
    obtain ⟨hc, hfront⟩ := not_or.mp (mt List.mem_cons.mpr hfront)
    rw [List.cons_append, strip_cons_of_ne (Ne.symm hc), ih hfront, List.cons_append]

theorem strip_of_unclosed {rest : List Char} (hrest : closing ∉ rest) :
    strip opening closing (opening :: rest) = opening :: rest := by
  rw [strip, if_pos rfl, if_neg (by simpa using hrest)]

/-- Behind the first closing character a text goes on as it is. -/
theorem tail_dropWhile_append {inside : List Char} (hinside : closing ∉ inside) (rest : List Char) :
    ((inside ++ closing :: rest).dropWhile (· ≠ closing)).tail = rest := by
  have hrun : ∀ c ∈ inside, decide (c ≠ closing) = true := by
    intro c hc
    exact decide_eq_true fun h => hinside (h ▸ hc)
  rw [List.dropWhile_append_of_pos hrun]
  simp

theorem strip_bracketed {inside : List Char} (hinside : closing ∉ inside) (rest : List Char) :
    strip opening closing (opening :: (inside ++ closing :: rest)) = strip opening closing rest := by
  rw [strip, if_pos rfl, if_pos (by simp), tail_dropWhile_append hinside]

/-- Induction along the parts of a text that stripping removes, and the characters that it keeps. -/
@[elab_as_elim]
theorem strip_induction (opening closing : Char) {motive : List Char → Prop} (nil : motive [])
    (kept : ∀ c rest, c ≠ opening → motive rest → motive (c :: rest))
    (unclosed : ∀ rest, closing ∉ rest → motive (opening :: rest))
    (bracketed : ∀ inside rest, closing ∉ inside → motive rest →
      motive (opening :: (inside ++ closing :: rest)))
    (s : List Char) : motive s := by
  match s with
  | [] => exact nil
  | c :: rest =>
    by_cases hc : c = opening
    · rw [hc]
      by_cases hrest : closing ∈ rest
      · obtain ⟨inside, behind, hparts, hinside⟩ := List.eq_append_cons_of_mem hrest
        have hbehind := strip_induction opening closing nil kept unclosed bracketed behind
        rw [hparts]
        exact bracketed inside behind hinside hbehind
      · exact unclosed rest hrest
    · exact kept c rest hc (strip_induction opening closing nil kept unclosed bracketed rest)
termination_by s.length
decreasing_by
  · rw [hparts]
    simp only [List.length_cons, List.length_append]
    omega
  · exact Nat.lt_succ_self _

theorem count_strip_le (hne : opening ≠ closing) (s : List Char) :
    (strip opening closing s).count opening + s.count closing ≤
      (strip opening closing s).count closing + s.count opening := by
  induction s using strip_induction opening closing with
  | nil => simp [strip]
  | kept c rest hc ih =>
    rw [strip_cons_of_ne hc]
    simp only [List.count_cons]
    omega
  | unclosed rest hrest =>
    rw [strip_of_unclosed hrest]
    omega
  | bracketed inside rest hinside ih =>
    have hnone : inside.count closing = 0 := List.count_eq_zero.mpr hinside
    rw [strip_bracketed hinside]
    simp only [List.count_cons, List.count_append, beq_iff_eq, hne, hne.symm, if_true, if_false]
    omega

/-- Stripping keeps a closing character that no opening one accounts for. -/
theorem mem_strip_of_count_lt (hne : opening ≠ closing) {s : List Char}
    (hcount : s.count opening < s.count closing) : closing ∈ strip opening closing s := by
  have hle := count_strip_le hne s
  rw [← List.count_pos_iff]
  omega

/-- A last character that does not close anything is kept. -/
theorem mem_strip_last {c : Char} (hc : c ≠ closing) (s : List Char) :
    c ∈ strip opening closing (s ++ [c]) := by
  induction s using strip_induction opening closing with
  | nil =>
    rw [List.nil_append, strip]
    split <;> simp
  | kept d rest hd ih =>
    rw [List.cons_append, strip_cons_of_ne hd]
    exact List.mem_cons_of_mem d ih
  | unclosed rest hrest =>
    rw [List.cons_append, strip_of_unclosed (by simp [hrest, hc.symm])]
    simp
  | bracketed inside rest hinside ih =>
    rw [List.cons_append, List.append_assoc, List.cons_append, strip_bracketed hinside]
    exact ih

/-- No closing character stands behind an opening one that is kept. -/
theorem not_sublist_strip (s : List Char) :
    ¬ [opening, closing].Sublist (strip opening closing s) := by
  induction s using strip_induction opening closing with
  | nil => simp [strip]
  | kept c rest hc ih =>
    rw [strip_cons_of_ne hc, List.cons_sublist_cons']
    simp [hc.symm, ih]
  | unclosed rest hrest =>
    rw [strip_of_unclosed hrest, List.cons_sublist_cons, List.singleton_sublist]
    exact hrest
  | bracketed inside rest hinside ih =>
    rw [strip_bracketed hinside]
    exact ih

theorem strip_eq_self {s : List Char} (hs : ¬ [opening, closing].Sublist s) :
    strip opening closing s = s := by
  induction s using strip_induction opening closing with
  | nil => rw [strip]
  | kept c rest hc ih => rw [strip_cons_of_ne hc, ih fun hrest => hs (hrest.cons c)]
  | unclosed rest hrest => exact strip_of_unclosed hrest
  | bracketed inside rest hinside =>
    have hclosed : closing ∈ inside ++ closing :: rest := by simp
    exact absurd ((List.singleton_sublist.mpr hclosed).cons_cons opening) hs

end Strip

section Hollow

variable {opening closing : Char}

theorem hollow_cons_of_ne {c : Char} (hc : c ≠ opening) (rest : List Char) :
    hollow opening closing (c :: rest) = c :: hollow opening closing rest := by
  rw [hollow, if_neg hc]

theorem hollow_of_unclosed {rest : List Char} (hrest : closing ∉ rest) :
    hollow opening closing (opening :: rest) = opening :: rest := by
  rw [hollow, if_pos rfl, if_neg (by simpa using hrest)]

theorem hollow_bracketed {inside : List Char} (hinside : closing ∉ inside) (rest : List Char) :
    hollow opening closing (opening :: (inside ++ closing :: rest)) =
      opening :: closing :: hollow opening closing rest := by
  rw [hollow, if_pos rfl, if_pos (by simp), tail_dropWhile_append hinside]

theorem strip_hollow (s : List Char) :
    strip opening closing (hollow opening closing s) = strip opening closing s := by
  induction s using strip_induction opening closing with
  | nil => rw [hollow]
  | kept c rest hc ih => rw [hollow_cons_of_ne hc, strip_cons_of_ne hc, ih, strip_cons_of_ne hc]
  | unclosed rest hrest => rw [hollow_of_unclosed hrest]
  | bracketed inside rest hinside ih =>
    have hempty : strip opening closing (opening :: ([] ++ closing :: hollow opening closing rest)) =
        strip opening closing (hollow opening closing rest) := strip_bracketed List.not_mem_nil _
    rw [hollow_bracketed hinside, strip_bracketed hinside, ← ih]
    exact hempty

/-- Where a text begins with something that has no opening character, so does its hollow form. -/
theorem takeWhile_hollow_eq_iff {test : Char → Bool} {front : List Char} (hfront : opening ∉ front)
    (s : List Char) :
    (hollow opening closing s).takeWhile test = front ↔ s.takeWhile test = front := by
  induction s using strip_induction opening closing generalizing front with
  | nil => rw [hollow]
  | kept c rest hc ih =>
    rw [hollow_cons_of_ne hc, List.takeWhile_cons, List.takeWhile_cons]
    split
    · cases front with
      | nil => simp
      | cons d front => simp [ih (mt (List.mem_cons_of_mem d) hfront)]
    · rfl
  | unclosed rest hrest => rw [hollow_of_unclosed hrest]
  | bracketed inside rest hinside ih =>
    rw [hollow_bracketed hinside]
    by_cases htest : test opening = true
    · rw [List.takeWhile_cons_of_pos htest, List.takeWhile_cons_of_pos htest]
      exact iff_of_false (fun h => hfront (h ▸ List.mem_cons_self))
        fun h => hfront (h ▸ List.mem_cons_self)
    · rw [List.takeWhile_cons_of_neg htest, List.takeWhile_cons_of_neg htest]

/-- What ends at an opening character at the latest is the same in the hollow form. -/
theorem takeWhile_hollow {test : Char → Bool} (htest : test opening = false) (s : List Char) :
    (hollow opening closing s).takeWhile test = s.takeWhile test := by
  have hfront : opening ∉ s.takeWhile test := by
    intro hmem
    rw [List.mem_takeWhile_imp hmem] at htest
    cases htest
  exact (takeWhile_hollow_eq_iff hfront s).mpr rfl

theorem hollow_eq_iff {whole : List Char} (hwhole : opening ∉ whole) (s : List Char) :
    hollow opening closing s = whole ↔ s = whole := by
  have htake (t : List Char) : t.takeWhile (fun _ => true) = t :=
    List.takeWhile_eq_self_iff.mpr (by simp)
  have hall : (hollow opening closing s).takeWhile (fun _ => true) = whole ↔
      s.takeWhile (fun _ => true) = whole := takeWhile_hollow_eq_iff hwhole s
  rwa [htake, htake] at hall

theorem head?_hollow (s : List Char) : (hollow opening closing s).head? = s.head? := by
  cases s using strip_induction opening closing with
  | nil => rw [hollow]
  | kept c rest hc => rw [hollow_cons_of_ne hc, List.head?_cons, List.head?_cons]
  | unclosed rest hrest => rw [hollow_of_unclosed hrest]
  | bracketed inside rest hinside => rw [hollow_bracketed hinside, List.head?_cons, List.head?_cons]

end Hollow

end DocModel.Text
