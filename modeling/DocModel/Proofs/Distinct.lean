import Mathlib.Data.List.Nodup

/-!
Lists without repetitions. Of equal elements the first one stays. Where a key tells the elements apart, what
is found under a key does not depend on their order.
-/

namespace DocModel

section Repetitions

variable {α : Type} [BEq α] [LawfulBEq α]

theorem nodup_eraseDups (xs : List α) : xs.eraseDups.Nodup := by
  match xs with
  | [] => exact .nil
  | x :: rest =>
    rw [List.eraseDups_cons, List.nodup_cons]
    refine ⟨fun hx => ?_, nodup_eraseDups _⟩
    have hother := (List.mem_filter.mp (List.mem_eraseDups.mp hx)).2
    simp at hother
termination_by xs.length
decreasing_by exact Nat.lt_succ_of_le (List.length_filter_le _ _)

theorem eraseDups_eq_self {xs : List α} (hxs : xs.Nodup) : xs.eraseDups = xs := by
  induction xs with
  | nil => rfl
  | cons x rest ih =>
    obtain ⟨hx, hrest⟩ := List.nodup_cons.mp hxs
    have hkept : (rest.filter fun y => !y == x) = rest := by
      refine List.filter_eq_self.mpr fun y hy => ?_
      have hne : y ≠ x := fun h => hx (h ▸ hy)
      simp [hne]
    rw [List.eraseDups_cons, hkept, ih hrest]

/-- What is added to a list does not depend on the repetitions in it. -/
theorem eraseDups_eraseDups_append (xs ys : List α) :
    (xs.eraseDups ++ ys).eraseDups = (xs ++ ys).eraseDups := by
  have hrest : ys.removeAll xs.eraseDups = ys.removeAll xs :=
    List.filter_congr fun y _ => by simp
  rw [List.eraseDups_append, List.eraseDups_append, eraseDups_eq_self (nodup_eraseDups xs), hrest]

/-- An element that is new comes last. -/
theorem eraseDups_concat_of_not_mem {xs : List α} {x : α} (hx : x ∉ xs) :
    (xs ++ [x]).eraseDups = xs.eraseDups ++ [x] := by
  have hnew : [x].removeAll xs = [x] := by simp [List.removeAll, hx]
  rw [List.eraseDups_append, hnew, eraseDups_eq_self (List.pairwise_singleton _ x)]

theorem eraseDups_concat_of_mem {xs : List α} {x : α} (hx : x ∈ xs) :
    (xs ++ [x]).eraseDups = xs.eraseDups := by
  have hold : [x].removeAll xs = [] := by simp [List.removeAll, hx]
  rw [List.eraseDups_append, hold, List.eraseDups_nil, List.append_nil]

end Repetitions

section Keys

variable {α κ : Type} [BEq κ] [LawfulBEq κ] {key : α → κ} {xs ys : List α} {k : κ} {x : α}

theorem of_find?_key_eq_some (hfound : xs.find? (key · == k) = some x) : x ∈ xs ∧ key x = k :=
  ⟨List.mem_of_find?_eq_some hfound, by simpa using List.find?_some hfound⟩

theorem find?_key_eq_some_iff (hkeys : (xs.map key).Nodup) :
    xs.find? (key · == k) = some x ↔ x ∈ xs ∧ key x = k := by
  constructor
  · exact of_find?_key_eq_some
  · rintro ⟨hmem, rfl⟩
    have hsome : (xs.find? (key · == key x)).isSome = true :=
      List.find?_isSome.mpr ⟨x, hmem, beq_self_eq_true (key x)⟩
    obtain ⟨found, hfound⟩ := Option.isSome_iff_exists.mp hsome
    obtain ⟨hfoundMem, hkey⟩ := of_find?_key_eq_some hfound
    rw [hfound, List.inj_on_of_nodup_map hkeys hfoundMem hmem hkey]

theorem find?_key_eq_of_perm (hperm : xs.Perm ys) (hkeys : (xs.map key).Nodup) (k : κ) :
    xs.find? (key · == k) = ys.find? (key · == k) := by
  have hkeys' : (ys.map key).Nodup := (hperm.map key).nodup_iff.mp hkeys
  ext x
  rw [find?_key_eq_some_iff hkeys, find?_key_eq_some_iff hkeys', hperm.mem_iff]

end Keys

end DocModel
