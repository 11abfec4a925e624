import DocModel.Proofs.HelperModule.Conditions
import DocModel.Proofs.Json.Conflation

/-!
Strict equality of arrays and objects. Numbers are compared as doubles at the top only. Inside of arrays and
objects they have to be of one kind, so that two containers with strictly equal contents are strictly equal
unless an integer stands where the other one has a real or another integer of the same double.
-/

namespace DocModel.Condition

open Json (IsConflated Unconflated)

variable {a b : Json}

/-- Structural equality is strict equality without conflated numbers. -/
theorem same_iff_holds_equal : a.same b = true ↔ Holds equal a b ∧ ¬ IsConflated a b := by
  rw [holds_equal_iff]
  cases a with
  | int n =>
    rw [Json.same_int_iff]
    cases b <;> simp [strictlyEqual, Json.number?, Json.asDoubles, Json.same]
  | real x =>
    rw [Json.same_real_iff_unconflated]
    cases b <;> simp [strictlyEqual, Json.number?, Json.asDoubles, Json.same]
  | null | bool | str | arr | obj => exact (and_iff_left fun hab => by cases hab).symm

theorem holds_equal_iff_same (ha : a.number? = none) : Holds equal a b ↔ a.same b = true := by
  rw [holds_equal_iff, strictlyEqual, ha]

/-- Arrays are strictly equal exactly if they have as many items, and those at one position are strictly
equal and not conflated; objects exactly if they have the same keys, and the values of one key are. At every
depth this means that values which are no numbers are strictly equal exactly if they are equal with each
number as a double, and no conflated numbers stand at the same place. -/
theorem equal_containers_iff (items others : List Json) {entries more : Entries Json}
    (hentries : entries.IsOrdered) (hmore : more.IsOrdered) {a : Json} (ha : a.number? = none) (b : Json) :
    (Holds equal (.arr items) (.arr others) ↔
      List.Forall₂ (fun a b => Holds equal a b ∧ ¬ IsConflated a b) items others) ∧
    (Holds equal (.obj entries) (.obj more) ↔
      ∀ key, Option.Rel (fun a b => Holds equal a b ∧ ¬ IsConflated a b) (entries.get? key)
        (more.get? key)) ∧
    (Holds equal a b ↔ a.asDoubles.same b.asDoubles = true ∧ Unconflated a b) := by
  refine ⟨?_, ?_, ?_⟩
  · rw [holds_equal_iff_same rfl, Json.same, Json.sameItems_iff_forall₂]
    simp only [same_iff_holds_equal]
  · rw [holds_equal_iff_same rfl, Json.same, Json.sameEntries_iff_forall₂]
    simp only [← same_iff_holds_equal]
    have hget := Entries.forall_get?_iff_forall₂ (r := fun a b : Json => a.same b = true) hentries hmore
    exact hget.symm
  · rw [holds_equal_iff_same ha, Json.same_iff_unconflated]

/-- The number one as an integer and as a real. -/
def ones : List Json := [.int 1, .real (.ofInt 1)]

/-- Two objects with the same items, one of which has another key with nothing in it. -/
theorem equal_containers_iff_ones :
    Entries.IsOrdered [("items", Json.arr ones)] ∧
      Entries.IsOrdered [("items", Json.arr ones), ("more", .null)] ∧
      Json.number? (.obj [("items", .arr ones)]) = none ∧
      Holds equal (.obj [("items", .arr ones)]) (.obj [("items", .arr ones)]) ∧
      Unconflated (.obj [("items", .arr ones)]) (.obj [("items", .arr ones)]) ∧
      ¬ Holds equal (.obj [("items", .arr ones)]) (.obj [("items", .arr ones), ("more", .null)]) := by
  have hitems : Entries.IsOrdered [("items", Json.arr ones)] := List.pairwise_singleton _ _
  have hmore : Entries.IsOrdered [("items", Json.arr ones), ("more", .null)] := by
    simp only [Entries.IsOrdered, List.pairwise_cons]
    decide
  have hnumber : Json.number? (.obj [("items", .arr ones)]) = none := rfl
  have hequal : Holds equal (.obj [("items", .arr ones)]) (.obj [("items", .arr ones)]) :=
    holds_equal_iff.mpr (by decide +kernel)
  obtain ⟨_, hobjects, hdepth⟩ :=
    equal_containers_iff ones ones hitems hmore hnumber (.obj [("items", .arr ones)])
  refine ⟨hitems, hmore, hnumber, hequal, (hdepth.mp hequal).2, fun hother => ?_⟩
  have hkey := hobjects.mp hother "more"
  rw [Entries.get?_cons_of_ne (by decide), Entries.get?_nil, Entries.get?_cons_of_ne (by decide),
    Entries.get?_cons_self] at hkey
  cases hkey

/-- One is equal to itself as an integer and as a real, but arrays and objects with these two are not, and
neither are those with two integers that have one double. -/
theorem not_equal_inside :
    Holds equal (.int 1) (.real (.ofInt 1)) ∧
      ¬ Holds equal (.arr [.int 1]) (.arr [.real (.ofInt 1)]) ∧
      ¬ Holds equal (.obj [("n", .int 1)]) (.obj [("n", .real (.ofInt 1))]) ∧
      Holds equal (.int 9007199254740992) (.int 9007199254740993) ∧
      ¬ Holds equal (.arr [.int 9007199254740992]) (.arr [.int 9007199254740993]) := by
  simp only [holds_equal_iff]
  decide +kernel

end DocModel.Condition
