import DocModel.Proofs.Json.Entries
import DocModel.Proofs.Json.Equality
import Mathlib.Data.List.Forall2

/-!
Structural equality against equality of numbers at every depth. Data with all integers turned into doubles are
compared number by number. Structural equality is finer: it tells apart numbers that become one double, and
it is finer at the places of such numbers only.
-/

namespace DocModel.Json

mutual

/-- The data with every integer as the nearest double, at every depth. -/
def asDoubles : Json → Json
  | int n => real (.ofInt n)
  | arr items => arr (itemsAsDoubles items)
  | obj entries => obj (entriesAsDoubles entries)
  | null => null
  | bool b => bool b
  | real x => real x
  | str s => str s

def itemsAsDoubles : List Json → List Json
  | [] => []
  | item :: rest => item.asDoubles :: itemsAsDoubles rest

def entriesAsDoubles : List (String × Json) → List (String × Json)
  | [] => []
  | (key, value) :: rest => (key, value.asDoubles) :: entriesAsDoubles rest

end

/-- Two numbers of one double that are not the same: an integer and a real, or two integers. -/
inductive IsConflated : Json → Json → Prop
  | integers {n m : Int} (hne : n ≠ m) (hequal : (Double.ofInt n).equal (.ofInt m) = true) :
      IsConflated (int n) (int m)
  | integerReal {n : Int} {x : Double} (hequal : (Double.ofInt n).equal x = true) :
      IsConflated (int n) (real x)
  | realInteger {x : Double} {n : Int} (hequal : x.equal (.ofInt n) = true) :
      IsConflated (real x) (int n)

/-- Two values stand at the same place of two data, or are these themselves. -/
inductive Meet : Json → Json → Json → Json → Prop
  | here (a b : Json) : Meet a b a b
  | item {items others : List Json} {a b x y : Json} (hpair : (a, b) ∈ items.zip others)
      (hmeet : Meet a b x y) : Meet (arr items) (arr others) x y
  | entry {entries others : List (String × Json)} {key key' : String} {a b x y : Json}
      (hpair : ((key, a), (key', b)) ∈ entries.zip others) (hmeet : Meet a b x y) :
      Meet (obj entries) (obj others) x y

/-- No conflated numbers stand at the same place of two data. -/
def Unconflated (a b : Json) : Prop := ∀ x y, Meet a b x y → ¬ IsConflated x y

section Leaves

variable {a b : Json}

/-- Whether data hold no other data. -/
def isLeaf : Json → Bool
  | arr _ | obj _ => false
  | null | bool _ | int _ | real _ | str _ => true

theorem unconflated_iff_of_isLeaf (ha : a.isLeaf = true) : Unconflated a b ↔ ¬ IsConflated a b := by
  constructor
  · exact fun hab => hab a b (.here a b)
  · rintro hab x y (_ | _ | _)
    · exact hab
    · cases ha
    · cases ha

theorem unconflated_arr_iff {items others : List Json} : Unconflated (arr items) (arr others) ↔
    ∀ pair ∈ items.zip others, Unconflated pair.1 pair.2 := by
  constructor
  · exact fun hall pair hpair x y hmeet => hall x y (.item hpair hmeet)
  · rintro hall x y (_ | ⟨hpair, hmeet⟩)
    · nofun
    · exact hall _ hpair x y hmeet

theorem unconflated_obj_iff {entries others : List (String × Json)} :
    Unconflated (obj entries) (obj others) ↔
      ∀ pair ∈ entries.zip others, Unconflated pair.1.2 pair.2.2 := by
  constructor
  · exact fun hall pair hpair x y hmeet => hall x y (.entry hpair hmeet)
  · rintro hall x y (_ | _ | ⟨hpair, hmeet⟩)
    · nofun
    · exact hall _ hpair x y hmeet

/-- Numbers are the same exactly if they have one double and are not conflated. -/
theorem same_int_iff {n : Int} :
    (int n).same b = true ↔ (int n).asDoubles.same b.asDoubles = true ∧ ¬ IsConflated (int n) b := by
  cases b with
  | int m =>
    simp only [same, asDoubles, beq_iff_eq]
    constructor
    · rintro rfl
      exact ⟨Double.equal_self_iff.mpr (Double.ofInt_ne_nan n), fun | .integers hne _ => hne rfl⟩
    · rintro ⟨hequal, hnot⟩
      by_contra hne
      exact hnot (.integers hne hequal)
  | real x =>
    simp only [same, asDoubles, Bool.false_eq_true, false_iff, not_and, not_not]
    exact .integerReal
  | _ => simp [same, asDoubles]

theorem same_real_iff_unconflated {x : Double} :
    (real x).same b = true ↔
      (real x).asDoubles.same b.asDoubles = true ∧ ¬ IsConflated (real x) b := by
  cases b with
  | int n =>
    simp only [same, asDoubles, Bool.false_eq_true, false_iff, not_and, not_not]
    exact .realInteger
  | real y =>
    simp only [same, asDoubles]
    exact (and_iff_left nofun).symm
  | _ => simp [same, asDoubles]

end Leaves

mutual

/-- Data are structurally equal exactly if they are equal with every number as a double, and no conflated
numbers stand at the same place. -/
theorem same_iff_unconflated : ∀ {a b : Json},
    a.same b = true ↔ a.asDoubles.same b.asDoubles = true ∧ Unconflated a b
  | int n, b => by rw [unconflated_iff_of_isLeaf rfl, same_int_iff]
  | real x, b => by rw [unconflated_iff_of_isLeaf rfl, same_real_iff_unconflated]
  | null, b | bool _, b | str _, b => by
    rw [unconflated_iff_of_isLeaf rfl, and_iff_left nofun]
    cases b <;> simp [same, asDoubles]
  | arr items, b => by
    cases b with
    | arr others => rw [unconflated_arr_iff, same, asDoubles, asDoubles, same, sameItems_iff_unconflated]
    | _ => simp [same, asDoubles]
  | obj entries, b => by
    cases b with
    | obj others =>
      rw [unconflated_obj_iff, same, asDoubles, asDoubles, same, sameEntries_iff_unconflated]
    | _ => simp [same, asDoubles]

theorem sameItems_iff_unconflated : ∀ {items others : List Json},
    sameItems items others = true ↔
      sameItems (itemsAsDoubles items) (itemsAsDoubles others) = true ∧
        ∀ pair ∈ items.zip others, Unconflated pair.1 pair.2
  | [], others => by cases others <;> simp [sameItems, itemsAsDoubles]
  | item :: rest, [] => by simp [sameItems, itemsAsDoubles]
  | item :: rest, other :: others => by
    simp only [sameItems, itemsAsDoubles, Bool.and_eq_true, List.zip_cons_cons, List.forall_mem_cons,
      @same_iff_unconflated item, @sameItems_iff_unconflated rest]
    tauto

theorem sameEntries_iff_unconflated : ∀ {entries others : List (String × Json)},
    sameEntries entries others = true ↔
      sameEntries (entriesAsDoubles entries) (entriesAsDoubles others) = true ∧
        ∀ pair ∈ entries.zip others, Unconflated pair.1.2 pair.2.2
  | [], others => by cases others <;> simp [sameEntries, entriesAsDoubles]
  | (key, value) :: rest, [] => by simp [sameEntries, entriesAsDoubles]
  | (key, value) :: rest, (key', other) :: others => by
    simp only [sameEntries, entriesAsDoubles, Bool.and_eq_true, List.zip_cons_cons,
      List.forall_mem_cons, @same_iff_unconflated value, @sameEntries_iff_unconflated rest]
    tauto

end

theorem sameItems_iff_forall₂ {items others : List Json} :
    sameItems items others = true ↔ List.Forall₂ (fun a b => a.same b = true) items others := by
  induction items generalizing others with
  | nil => rw [sameItems_nil_iff, List.forall₂_nil_left_iff]
  | cons item rest ih =>
    cases others with
    | nil => simp [sameItems, List.forall₂_nil_right_iff]
    | cons other others => rw [sameItems, Bool.and_eq_true, ih, List.forall₂_cons]

theorem sameEntries_iff_forall₂ {entries others : List (String × Json)} :
    sameEntries entries others = true ↔
      List.Forall₂ (fun x y => x.1 = y.1 ∧ x.2.same y.2 = true) entries others := by
  induction entries generalizing others with
  | nil => rw [sameEntries_nil_iff, List.forall₂_nil_left_iff]
  | cons entry rest ih =>
    cases others with
    | nil => simp [sameEntries, List.forall₂_nil_right_iff]
    | cons other others =>
      rw [sameEntries, Bool.and_eq_true, Bool.and_eq_true, beq_iff_eq, ih, List.forall₂_cons]

end DocModel.Json
