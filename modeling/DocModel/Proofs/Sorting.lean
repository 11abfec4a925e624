import DocModel.Sorting
import Mathlib.Data.List.Perm.Basic

/-!
Laws of stable sorting. A total and transitive order sorts, leaving elements out before or after the
sorting is the same, and sorting by what a function yields agrees with sorting what it yields.
-/

namespace DocModel

variable {α β : Type}

/-- An order for sorting: any two elements are comparable, and comparisons can be chained. -/
structure IsSortOrder (le : α → α → Bool) : Prop where
  total : ∀ a b, le a b = true ∨ le b a = true
  trans : ∀ a b c, le a b = true → le b c = true → le a c = true

theorem map_insertSorted (f : α → β) (le : β → β → Bool) (a : α) (xs : List α) :
    (insertSorted (fun x y => le (f x) (f y)) a xs).map f = insertSorted le (f a) (xs.map f) := by
  induction xs with
  | nil => rfl
  | cons b rest ih =>
    rw [insertSorted, List.map_cons, insertSorted]
    by_cases hle : le (f a) (f b) = true
    · rw [if_pos hle, if_pos hle, List.map_cons, List.map_cons]
    · rw [if_neg hle, if_neg hle, List.map_cons, ih]

theorem map_stableSort (f : α → β) (le : β → β → Bool) (xs : List α) :
    (stableSort (fun x y => le (f x) (f y)) xs).map f = stableSort le (xs.map f) := by
  induction xs with
  | nil => rfl
  | cons a rest ih => rw [stableSort, map_insertSorted, ih, List.map_cons, stableSort]

section Order

variable {le : α → α → Bool}

theorem IsSortOrder.pairwise_insertSorted (hle : IsSortOrder le) (a : α) {xs : List α}
    (hxs : xs.Pairwise fun x y => le x y = true) :
    (insertSorted le a xs).Pairwise fun x y => le x y = true := by
  induction xs with
  | nil => exact List.pairwise_singleton _ a
  | cons b rest ih =>
    obtain ⟨hb, hrest⟩ := List.pairwise_cons.mp hxs
    rw [insertSorted]
    by_cases hab : le a b = true
    · rw [if_pos hab]
      refine List.pairwise_cons.mpr ⟨fun x hx => ?_, hxs⟩
      rcases List.mem_cons.mp hx with rfl | hx
      · exact hab
      · exact hle.trans a b x hab (hb x hx)
    · rw [if_neg hab]
      refine List.pairwise_cons.mpr ⟨fun x hx => ?_, ih hrest⟩
      have hx := (insertSorted_perm le a rest).mem_iff.mp hx
      rcases List.mem_cons.mp hx with rfl | hx
      · exact (hle.total x b).resolve_left hab
      · exact hb x hx

theorem IsSortOrder.pairwise_stableSort (hle : IsSortOrder le) (xs : List α) :
    (stableSort le xs).Pairwise fun x y => le x y = true := by
  induction xs with
  | nil => exact .nil
  | cons a rest ih => exact hle.pairwise_insertSorted a ih

theorem insertSorted_of_forall_le {a : α} {xs : List α} (hall : ∀ x ∈ xs, le a x = true) :
    insertSorted le a xs = a :: xs := by
  cases xs with
  | nil => rfl
  | cons b rest => rw [insertSorted, if_pos (hall b List.mem_cons_self)]

/-- What is in order stays as it is. -/
theorem stableSort_eq_self {xs : List α} (hxs : xs.Pairwise fun x y => le x y = true) :
    stableSort le xs = xs := by
  induction xs with
  | nil => rfl
  | cons a rest ih =>
    obtain ⟨ha, hrest⟩ := List.pairwise_cons.mp hxs
    rw [stableSort, ih hrest, insertSorted_of_forall_le ha]

theorem filter_insertSorted_of_neg (p : α → Bool) {a : α} (ha : p a = false) (xs : List α) :
    (insertSorted le a xs).filter p = xs.filter p := by
  induction xs with
  | nil => simp [insertSorted, ha]
  | cons b rest ih =>
    rw [insertSorted]
    split
    · simp [ha]
    · rw [List.filter_cons, ih, List.filter_cons]

/-- In a sorted list an element is put at the same place among those that stay. -/
theorem IsSortOrder.filter_insertSorted (hle : IsSortOrder le) (p : α → Bool) {a : α}
    (ha : p a = true) {xs : List α} (hxs : xs.Pairwise fun x y => le x y = true) :
    (insertSorted le a xs).filter p = insertSorted le a (xs.filter p) := by
  induction xs with
  | nil => simp [insertSorted, ha]
  | cons b rest ih =>
    obtain ⟨hb, hrest⟩ := List.pairwise_cons.mp hxs
    rw [insertSorted]
    -- Before `b` the element comes first among all that stay, whether `b` stays or not.
    by_cases hab : le a b = true
    · have hall : ∀ x ∈ (b :: rest).filter p, le a x = true := by
        intro x hx
        rcases List.mem_cons.mp (List.mem_of_mem_filter hx) with rfl | hx
        · exact hab
        · exact hle.trans a b x hab (hb x hx)
      rw [if_pos hab, insertSorted_of_forall_le hall, List.filter_cons_of_pos ha]
    · rw [if_neg hab]
      cases hpb : p b with
      | false => simp [hpb, ih hrest]
      | true => simp [hpb, ih hrest, insertSorted, hab]

/-- Sorting commutes with leaving elements out. -/
theorem IsSortOrder.filter_stableSort (hle : IsSortOrder le) (p : α → Bool) (xs : List α) :
    (stableSort le xs).filter p = stableSort le (xs.filter p) := by
  induction xs with
  | nil => rfl
  | cons a rest ih =>
    have hsorted := hle.pairwise_stableSort rest
    rw [stableSort]
    cases ha : p a with
    | false => rw [filter_insertSorted_of_neg p ha, ih, List.filter_cons_of_neg (by simp [ha])]
    | true => rw [hle.filter_insertSorted p ha hsorted, ih, List.filter_cons_of_pos ha, stableSort]

/-- Elements that the order does not tell apart keep the order they had. -/
theorem IsSortOrder.filter_stableSort_of_tied (hle : IsSortOrder le) {p : α → Bool}
    (htied : ∀ a b, p a = true → p b = true → le a b = true) (xs : List α) :
    (stableSort le xs).filter p = xs.filter p := by
  rw [hle.filter_stableSort]
  refine stableSort_eq_self (List.pairwise_of_forall_mem_list fun a ha b hb => ?_)
  exact htied a b (List.mem_filter.mp ha).2 (List.mem_filter.mp hb).2

/-- The order a list had before does not matter for sorting, when the sort order tells its elements
apart. -/
theorem IsSortOrder.stableSort_eq_of_perm (hle : IsSortOrder le) {xs ys : List α} (hperm : xs.Perm ys)
    (hantisymm : ∀ a ∈ xs, ∀ b ∈ xs, le a b = true → le b a = true → a = b) :
    stableSort le xs = stableSort le ys := by
  have hxs := stableSort_perm le xs
  have hys := stableSort_perm le ys
  refine List.Perm.eq_of_pairwise (fun a b ha hb => ?_) (hle.pairwise_stableSort xs)
    (hle.pairwise_stableSort ys) (hxs.trans (hperm.trans hys.symm))
  exact hantisymm a (hxs.mem_iff.mp ha) b (hperm.mem_iff.mpr (hys.mem_iff.mp hb))

end Order

/-- A property that is passed on to all later elements holds of a last part of the list. -/
theorem filter_append_filter_of_pairwise {r : α → α → Prop} {p : α → Bool} {xs : List α}
    (hxs : xs.Pairwise r) (hpass : ∀ a b, r a b → p a = true → p b = true) :
    (xs.filter fun x => !p x) ++ xs.filter p = xs := by
  induction hxs with
  | nil => rfl
  | @cons a rest ha _ ih =>
    cases hp : p a with
    | false => simp [hp, ih]
    | true =>
      have hall : ∀ x ∈ rest, p x = true := fun x hx => hpass a x (ha x hx) hp
      have hnone : rest.filter (fun x => !p x) = [] :=
        List.filter_eq_nil_iff.mpr fun x hx => by simp [hall x hx]
      simp [hp, hnone, List.filter_eq_self.mpr hall]

end DocModel
