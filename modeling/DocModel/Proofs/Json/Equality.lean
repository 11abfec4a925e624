import DocModel.Json.Value

/-!
Equality of numbers and structural equality of data. Both are symmetric and transitive without exception.
A number is equal to itself unless it is a NaN, and data are structurally equal to themselves exactly if
there is no NaN among their reals at any depth.
-/

namespace DocModel

namespace Double

variable {x y z : Double}

theorem equal_comm (x y : Double) : x.equal y = y.equal x := by
  unfold equal
  cases x.place? <;> cases y.place? <;> simp [Bool.beq_comm]

theorem equal_trans (hxy : x.equal y = true) (hyz : y.equal z = true) : x.equal z = true := by
  obtain ⟨hx, hplace⟩ := equal_iff.mp hxy
  obtain ⟨_, hplace'⟩ := equal_iff.mp hyz
  exact equal_iff.mpr ⟨hx, hplace.trans hplace'⟩

theorem equal_self_iff : x.equal x = true ↔ x ≠ nan := by
  rw [equal_iff, and_iff_left rfl]

theorem ne_nan_of_isFinite (hx : x.isFinite = true) : x ≠ nan := by
  rintro rfl
  cases hx

theorem less_eq_false_of_less (hless : x.less y = true) : y.less x = false := by
  unfold less at *
  cases hx : x.place? <;> cases hy : y.place? <;> simp_all
  omega

theorem ofMantissa_ne_nan (negative : Bool) (mantissa scale : Nat) :
    ofMantissa negative mantissa scale ≠ nan := by
  simp only [ofMantissa]
  split <;> split <;> simp

theorem ofInt_ne_nan (n : Int) : ofInt n ≠ nan := ofMantissa_ne_nan _ _ _

end Double

namespace Json

mutual

/-- Whether all reals among the data meet a condition, at every depth. -/
def allReals (p : Double → Bool) : Json → Bool
  | real x => p x
  | arr items => itemsAllReals p items
  | obj entries => entriesAllReals p entries
  | null | bool _ | int _ | str _ => true

def itemsAllReals (p : Double → Bool) : List Json → Bool
  | [] => true
  | item :: rest => item.allReals p && itemsAllReals p rest

def entriesAllReals (p : Double → Bool) : List (String × Json) → Bool
  | [] => true
  | (_, value) :: rest => value.allReals p && entriesAllReals p rest

end

/-- Data without infinities and NaNs. -/
def IsFinite (data : Json) : Prop := data.allReals Double.isFinite = true

/-- Whether data are neither an array nor an object nor a real, so that they are the same as nothing but
themselves. -/
def isAtom : Json → Bool
  | null | bool _ | int _ | str _ => true
  | real _ | arr _ | obj _ => false

section AllReals

variable {p q : Double → Bool}

mutual

theorem allReals_mono (hpq : ∀ x, p x = true → q x = true) :
    ∀ data : Json, data.allReals p = true → data.allReals q = true
  | real x, hdata => by
    rw [allReals] at hdata ⊢
    exact hpq x hdata
  | arr items, hdata => by
    rw [allReals] at hdata ⊢
    exact itemsAllReals_mono hpq items hdata
  | obj entries, hdata => by
    rw [allReals] at hdata ⊢
    exact entriesAllReals_mono hpq entries hdata
  | null, _ | bool _, _ | int _, _ | str _, _ => by rw [allReals]

theorem itemsAllReals_mono (hpq : ∀ x, p x = true → q x = true) :
    ∀ items : List Json, itemsAllReals p items = true → itemsAllReals q items = true
  | [], _ => by rw [itemsAllReals]
  | item :: rest, hitems => by
    rw [itemsAllReals, Bool.and_eq_true] at hitems ⊢
    exact ⟨allReals_mono hpq item hitems.1, itemsAllReals_mono hpq rest hitems.2⟩

theorem entriesAllReals_mono (hpq : ∀ x, p x = true → q x = true) :
    ∀ entries : List (String × Json), entriesAllReals p entries = true →
      entriesAllReals q entries = true
  | [], _ => by rw [entriesAllReals]
  | (_, value) :: rest, hentries => by
    rw [entriesAllReals, Bool.and_eq_true] at hentries ⊢
    exact ⟨allReals_mono hpq value hentries.1, entriesAllReals_mono hpq rest hentries.2⟩

end

end AllReals

section Same

mutual

/-- Data are compared with themselves real by real. -/
theorem same_self : ∀ data : Json, data.same data = data.allReals fun x => x.equal x
  | null | bool _ | int _ | str _ => by simp [same, allReals]
  | real _ => by simp [same, allReals]
  | arr items => by rw [same, allReals, sameItems_self items]
  | obj entries => by rw [same, allReals, sameEntries_self entries]

theorem sameItems_self : ∀ items : List Json,
    sameItems items items = itemsAllReals (fun x => x.equal x) items
  | [] => by rw [sameItems, itemsAllReals]
  | item :: rest => by rw [sameItems, itemsAllReals, same_self item, sameItems_self rest]

theorem sameEntries_self : ∀ entries : List (String × Json),
    sameEntries entries entries = entriesAllReals (fun x => x.equal x) entries
  | [] => by rw [sameEntries, entriesAllReals]
  | (key, value) :: rest => by
    rw [sameEntries, entriesAllReals, same_self value, sameEntries_self rest, BEq.rfl, Bool.true_and]

end

theorem same_self_iff {data : Json} :
    data.same data = true ↔ data.allReals (fun x => decide (x ≠ .nan)) = true := by
  have hself : (fun x : Double => x.equal x) = fun x => decide (x ≠ .nan) := by
    funext x
    rw [Bool.eq_iff_iff, decide_eq_true_iff, Double.equal_self_iff]
  rw [same_self, hself]

theorem IsFinite.same_self {data : Json} (hdata : data.IsFinite) : data.same data = true := by
  refine same_self_iff.mpr (allReals_mono (fun x hx => ?_) data hdata)
  exact decide_eq_true (Double.ne_nan_of_isFinite hx)

section Inversion

variable {b : Json}

theorem eq_of_same_of_isAtom {a : Json} (ha : a.isAtom = true) (hab : a.same b = true) : b = a := by
  cases a <;> cases b <;> simp_all [same, isAtom]

theorem same_real_iff {x : Double} :
    (real x).same b = true ↔ ∃ y, b = real y ∧ x.equal y = true := by
  cases b <;> simp [same]

theorem same_arr_iff {items : List Json} :
    (arr items).same b = true ↔ ∃ others, b = arr others ∧ sameItems items others = true := by
  cases b <;> simp [same]

theorem same_obj_iff {entries : List (String × Json)} : (obj entries).same b = true ↔
    ∃ others, b = obj others ∧ sameEntries entries others = true := by
  cases b <;> simp [same]

theorem sameItems_nil_iff {items : List Json} : sameItems [] items = true ↔ items = [] := by
  cases items <;> simp [sameItems]

theorem sameItems_cons_iff {item : Json} {rest items : List Json} :
    sameItems (item :: rest) items = true ↔
      ∃ other others, items = other :: others ∧ item.same other = true ∧
        sameItems rest others = true := by
  cases items with
  | nil => simp [sameItems]
  | cons other others =>
    rw [sameItems, Bool.and_eq_true]
    simp [and_assoc]

theorem sameEntries_nil_iff {entries : List (String × Json)} :
    sameEntries [] entries = true ↔ entries = [] := by
  cases entries <;> simp [sameEntries]

theorem sameEntries_cons_iff {key : String} {value : Json} {rest entries : List (String × Json)} :
    sameEntries ((key, value) :: rest) entries = true ↔
      ∃ other others, entries = (key, other) :: others ∧ value.same other = true ∧
        sameEntries rest others = true := by
  cases entries with
  | nil => simp [sameEntries]
  | cons entry others =>
    simp only [sameEntries, Bool.and_eq_true, beq_iff_eq]
    grind

end Inversion

mutual

theorem same_symm : ∀ {a b : Json}, a.same b = true → b.same a = true
  | null, _, hab | bool _, _, hab | int _, _, hab | str _, _, hab => by
    obtain rfl := eq_of_same_of_isAtom rfl hab
    exact hab
  | real x, _, hab => by
    obtain ⟨y, rfl, hxy⟩ := same_real_iff.mp hab
    exact same_real_iff.mpr ⟨x, rfl, Double.equal_comm x y ▸ hxy⟩
  | arr items, _, hab => by
    obtain ⟨others, rfl, hitems⟩ := same_arr_iff.mp hab
    exact same_arr_iff.mpr ⟨items, rfl, sameItems_symm hitems⟩
  | obj entries, _, hab => by
    obtain ⟨others, rfl, hentries⟩ := same_obj_iff.mp hab
    exact same_obj_iff.mpr ⟨entries, rfl, sameEntries_symm hentries⟩

theorem sameItems_symm : ∀ {items others : List Json},
    sameItems items others = true → sameItems others items = true
  | [], _, hsame => by
    obtain rfl := sameItems_nil_iff.mp hsame
    exact hsame
  | item :: rest, _, hsame => by
    obtain ⟨other, others, rfl, hitem, hrest⟩ := sameItems_cons_iff.mp hsame
    exact sameItems_cons_iff.mpr ⟨item, rest, rfl, same_symm hitem, sameItems_symm hrest⟩

theorem sameEntries_symm : ∀ {entries others : List (String × Json)},
    sameEntries entries others = true → sameEntries others entries = true
  | [], _, hsame => by
    obtain rfl := sameEntries_nil_iff.mp hsame
    exact hsame
  | (_, value) :: rest, _, hsame => by
    obtain ⟨other, others, rfl, hvalue, hrest⟩ := sameEntries_cons_iff.mp hsame
    exact sameEntries_cons_iff.mpr ⟨value, rest, rfl, same_symm hvalue, sameEntries_symm hrest⟩

end

theorem same_comm (a b : Json) : a.same b = b.same a :=
  Bool.eq_iff_iff.mpr ⟨same_symm, same_symm⟩

mutual

theorem same_trans : ∀ {a b c : Json}, a.same b = true → b.same c = true → a.same c = true
  | null, _, _, hab, hbc | bool _, _, _, hab, hbc | int _, _, _, hab, hbc | str _, _, _, hab, hbc => by
    obtain rfl := eq_of_same_of_isAtom rfl hab
    exact hbc
  | real _, _, _, hab, hbc => by
    obtain ⟨y, rfl, hxy⟩ := same_real_iff.mp hab
    obtain ⟨z, rfl, hyz⟩ := same_real_iff.mp hbc
    exact same_real_iff.mpr ⟨z, rfl, Double.equal_trans hxy hyz⟩
  | arr _, _, _, hab, hbc => by
    obtain ⟨others, rfl, hitems⟩ := same_arr_iff.mp hab
    obtain ⟨last, rfl, hothers⟩ := same_arr_iff.mp hbc
    exact same_arr_iff.mpr ⟨last, rfl, sameItems_trans hitems hothers⟩
  | obj _, _, _, hab, hbc => by
    obtain ⟨others, rfl, hentries⟩ := same_obj_iff.mp hab
    obtain ⟨last, rfl, hothers⟩ := same_obj_iff.mp hbc
    exact same_obj_iff.mpr ⟨last, rfl, sameEntries_trans hentries hothers⟩

theorem sameItems_trans : ∀ {items others last : List Json}, sameItems items others = true →
    sameItems others last = true → sameItems items last = true
  | [], _, _, hab, hbc => by
    obtain rfl := sameItems_nil_iff.mp hab
    exact hbc
  | _ :: _, _, _, hab, hbc => by
    obtain ⟨b, bs, rfl, hitem, hrest⟩ := sameItems_cons_iff.mp hab
    obtain ⟨c, cs, rfl, hitem', hrest'⟩ := sameItems_cons_iff.mp hbc
    exact sameItems_cons_iff.mpr
      ⟨c, cs, rfl, same_trans hitem hitem', sameItems_trans hrest hrest'⟩

theorem sameEntries_trans : ∀ {entries others last : List (String × Json)},
    sameEntries entries others = true → sameEntries others last = true →
      sameEntries entries last = true
  | [], _, _, hab, hbc => by
    obtain rfl := sameEntries_nil_iff.mp hab
    exact hbc
  | (_, _) :: _, _, _, hab, hbc => by
    obtain ⟨b, bs, rfl, hvalue, hrest⟩ := sameEntries_cons_iff.mp hab
    obtain ⟨c, cs, rfl, hvalue', hrest'⟩ := sameEntries_cons_iff.mp hbc
    exact sameEntries_cons_iff.mpr
      ⟨c, cs, rfl, same_trans hvalue hvalue', sameEntries_trans hrest hrest'⟩

end

end Same

end Json

end DocModel
