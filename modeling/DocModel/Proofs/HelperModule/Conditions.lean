import DocModel.HelperModule.Condition
import DocModel.Proofs.Json.Finite

/-!
The laws of the operations on two values. Strict equality partitions the data into classes, soft equality
joins some of these classes but is not transitive, the comparisons are one asymmetric relation read in two
directions, and the connectives follow the truth of their arguments.
-/

namespace DocModel.Condition

variable {a b c : Json}

/-- An operation yields true. -/
def Holds (op : Condition) (a b : Json) : Prop := op.apply a b = .bool true

section Equality

theorem holds_equal_iff : Holds equal a b ↔ strictlyEqual a b = true := by
  simp [Holds, apply]

theorem holds_softEqual_iff : Holds softEqual a b ↔ softlyEqual a b = true := by
  simp [Holds, apply]

theorem strictlyEqual_comm (a b : Json) : strictlyEqual a b = strictlyEqual b a := by
  unfold strictlyEqual
  cases a.number? <;> cases b.number? <;> simp [Double.equal_comm, Json.same_comm]

theorem number?_ne_nan {x : Double} (ha : a.IsFinite) (hx : a.number? = some x) : x ≠ .nan := by
  cases a with
  | int n =>
    cases hx
    exact Double.ofInt_ne_nan n
  | real y =>
    cases hx
    exact Double.ne_nan_of_isFinite ha
  | null | bool | str | arr | obj => cases hx

theorem strictlyEqual_self (ha : a.IsFinite) : strictlyEqual a a = true := by
  unfold strictlyEqual
  cases hx : a.number? with
  | none => exact ha.same_self
  | some x => exact Double.equal_self_iff.mpr (number?_ne_nan ha hx)

/-- A number is structurally equal to numbers only. -/
theorem isSome_number?_of_same (hab : a.same b = true) : a.number?.isSome = b.number?.isSome := by
  cases a <;> cases b <;> simp_all [Json.same, Json.number?]

/-- Values are equal as numbers, or as data that are no numbers. -/
theorem strictlyEqual_iff : strictlyEqual a b = true ↔
    (∃ x y, a.number? = some x ∧ b.number? = some y ∧ x.equal y = true) ∨
      (a.number? = none ∧ b.number? = none ∧ a.same b = true) := by
  unfold strictlyEqual
  have hkinds (hsame : a.same b = true) := isSome_number?_of_same hsame
  cases ha : a.number? <;> cases hb : b.number? <;> simp_all

theorem strictlyEqual_trans (hab : strictlyEqual a b = true) (hbc : strictlyEqual b c = true) :
    strictlyEqual a c = true := by
  rw [strictlyEqual_iff] at hab hbc ⊢
  rcases hab with ⟨x, y, ha, hb, hxy⟩ | ⟨ha, hb, hab⟩
  · rcases hbc with ⟨y', z, hb', hc, hyz⟩ | ⟨hb', _, _⟩
    · obtain rfl : y = y' := Option.some_inj.mp (hb.symm.trans hb')
      exact .inl ⟨x, z, ha, hc, Double.equal_trans hxy hyz⟩
    · rw [hb] at hb'
      cases hb'
  · rcases hbc with ⟨y', z, hb', _, _⟩ | ⟨_, hc, hbc⟩
    · rw [hb] at hb'
      cases hb'
    · exact .inr ⟨ha, hc, Json.same_trans hab hbc⟩

/-- Whether soft equality makes numbers of two values: one of them is a truth value and the other one is
neither that nor null, or one is a number and the other one a text. -/
def isCoerced : Json → Json → Bool
  | .null, _ | _, .null | .bool _, .bool _ => false
  | .bool _, _ | _, .bool _ | .int _, .str _ | .real _, .str _ | .str _, .int _ | .str _, .real _ => true
  | _, _ => false

theorem isCoerced_comm (a b : Json) : isCoerced a b = isCoerced b a := by
  cases a <;> cases b <;> rfl

theorem isCoerced_self (a : Json) : isCoerced a a = false := by
  cases a <;> rfl

theorem softlyEqual_eq (a b : Json) : softlyEqual a b =
    if isCoerced a b then (toNumber a).equal (toNumber b) else strictlyEqual a b := by
  cases a <;> cases b <;> rfl

theorem softlyEqual_comm (a b : Json) : softlyEqual a b = softlyEqual b a := by
  rw [softlyEqual_eq, softlyEqual_eq b, isCoerced_comm, Double.equal_comm, strictlyEqual_comm]

theorem softlyEqual_self (ha : a.IsFinite) : softlyEqual a a = true := by
  rw [softlyEqual_eq, isCoerced_self, if_neg Bool.false_ne_true, strictlyEqual_self ha]

/-- Values of which numbers are made are of different kinds. -/
theorem strictlyEqual_eq_false_of_isCoerced (hkinds : isCoerced a b = true) :
    strictlyEqual a b = false := by
  cases a <;> cases b <;> first | (cases hkinds; done) | rfl

theorem softlyEqual_of_strictlyEqual (hab : strictlyEqual a b = true) : softlyEqual a b = true := by
  rw [softlyEqual_eq, if_neg, hab]
  intro hkinds
  rw [strictlyEqual_eq_false_of_isCoerced hkinds] at hab
  cases hab

theorem holds_equal_self (ha : a.IsFinite) : Holds equal a a :=
  holds_equal_iff.mpr (strictlyEqual_self ha)

theorem holds_softEqual_self (ha : a.IsFinite) : Holds softEqual a a :=
  holds_softEqual_iff.mpr (softlyEqual_self ha)

end Equality

section Connectives

theorem isTruthy_and (a b : Json) : isTruthy (and.apply a b) = (isTruthy a && isTruthy b) := by
  cases ha : isTruthy a <;> simp [apply, ha]

theorem isTruthy_or (a b : Json) : isTruthy (or.apply a b) = (isTruthy a || isTruthy b) := by
  cases ha : isTruthy a <;> simp [apply, ha]

theorem and_assoc (a b c : Json) : and.apply (and.apply a b) c = and.apply a (and.apply b c) := by
  cases ha : isTruthy a <;> simp [apply, ha]

theorem or_assoc (a b c : Json) : or.apply (or.apply a b) c = or.apply a (or.apply b c) := by
  cases ha : isTruthy a <;> simp [apply, ha]

theorem and_eq_or_eq (a b : Json) : and.apply a b = a ∨ and.apply a b = b := by
  cases ha : isTruthy a <;> simp [apply, ha]

theorem or_eq_or_eq (a b : Json) : or.apply a b = a ∨ or.apply a b = b := by
  cases ha : isTruthy a <;> simp [apply, ha]

end Connectives

section Order

theorem not_holds_greater_and_less : ¬ (Holds greater a b ∧ Holds less a b) := by
  rintro ⟨hgreater, hless⟩
  simp only [Holds, apply, Json.bool.injEq] at hgreater hless
  rw [Double.less_eq_false_of_less hless] at hgreater
  cases hgreater

end Order

/-- The laws of the operations for three values. Only that a value is equal to itself needs its numbers to
be finite, which those of data that are read from a text are. -/
structure Laws (a b c : Json) : Prop where
  equal_refl : a.IsFinite → Holds equal a a
  equal_refl_of_ofText? : ∀ text, Json.ofText? text = some a → Holds equal a a
  equal_symm : Holds equal a b → Holds equal b a
  equal_trans : Holds equal a b → Holds equal b c → Holds equal a c
  softEqual_refl : a.IsFinite → Holds softEqual a a
  softEqual_refl_of_ofText? : ∀ text, Json.ofText? text = some a → Holds softEqual a a
  softEqual_symm : Holds softEqual a b → Holds softEqual b a
  softEqual_of_equal : Holds equal a b → Holds softEqual a b
  notEqual_eq : ∃ v, equal.apply a b = .bool v ∧ notEqual.apply a b = .bool !v
  softNotEqual_eq : ∃ v, softEqual.apply a b = .bool v ∧ softNotEqual.apply a b = .bool !v
  greater_eq : greater.apply a b = less.apply b a
  not_greater_and_less : ¬ (Holds greater a b ∧ Holds less a b)
  and_assoc : and.apply (and.apply a b) c = and.apply a (and.apply b c)
  or_assoc : or.apply (or.apply a b) c = or.apply a (or.apply b c)
  and_operand : and.apply a b = a ∨ and.apply a b = b
  or_operand : or.apply a b = a ∨ or.apply a b = b
  isTruthy_and : isTruthy (and.apply a b) = (isTruthy a && isTruthy b)
  isTruthy_or : isTruthy (or.apply a b) = (isTruthy a || isTruthy b)

theorem apply_laws (a b c : Json) : Laws a b c where
  equal_refl ha := holds_equal_self ha
  equal_refl_of_ofText? _ hread := holds_equal_self (Json.isFinite_of_read? hread)
  equal_symm hab := by
    rwa [holds_equal_iff, strictlyEqual_comm, ← holds_equal_iff]
  equal_trans hab hbc :=
    holds_equal_iff.mpr (strictlyEqual_trans (holds_equal_iff.mp hab) (holds_equal_iff.mp hbc))
  softEqual_refl ha := holds_softEqual_self ha
  softEqual_refl_of_ofText? _ hread := holds_softEqual_self (Json.isFinite_of_read? hread)
  softEqual_symm hab := by
    rwa [holds_softEqual_iff, softlyEqual_comm, ← holds_softEqual_iff]
  softEqual_of_equal hab :=
    holds_softEqual_iff.mpr (softlyEqual_of_strictlyEqual (holds_equal_iff.mp hab))
  notEqual_eq := ⟨strictlyEqual a b, rfl, rfl⟩
  softNotEqual_eq := ⟨softlyEqual a b, rfl, rfl⟩
  greater_eq := rfl
  not_greater_and_less := not_holds_greater_and_less
  and_assoc := and_assoc a b c
  or_assoc := or_assoc a b c
  and_operand := and_eq_or_eq a b
  or_operand := or_eq_or_eq a b
  isTruthy_and := isTruthy_and a b
  isTruthy_or := isTruthy_or a b

/-- Data with one of the zeros inside. -/
def zeroData (negative : Bool) : Json :=
  .obj [("places", .arr [.real (.finite negative 0 0), .obj [("name", .str "origin")]])]

/-- Data that differ in the sign of a zero are equal, strictly and softly. -/
theorem apply_laws_zeroData :
    (zeroData false).IsFinite ∧ Holds equal (zeroData false) (zeroData false) ∧
      Holds equal (zeroData false) (zeroData true) ∧ Holds equal (zeroData true) (zeroData false) ∧
      Holds softEqual (zeroData false) (zeroData true) := by
  have hfinite : (zeroData false).IsFinite := rfl
  have hequal : Holds equal (zeroData false) (zeroData true) :=
    holds_equal_iff.mpr (by decide +kernel)
  have hlaws := apply_laws (zeroData false) (zeroData true) (zeroData false)
  exact ⟨hfinite, hlaws.equal_refl hfinite, hequal, hlaws.equal_symm hequal,
    hlaws.softEqual_of_equal hequal⟩

/-- Soft equality is not transitive: zero is softly equal to two texts that differ. -/
example : Holds softEqual (.str "") (.int 0) ∧ Holds softEqual (.int 0) (.str "0") ∧
    ¬ Holds softEqual (.str "") (.str "0") := by
  simp only [holds_softEqual_iff]
  decide +kernel

end DocModel.Condition
