import DocModel.Proofs.Field.Places
import DocModel.Proofs.Metadata.Decoration
import DocModel.Proofs.Sorting

/-!
The ranks of siblings. Siblings can be sorted by them; and where the fields have places of their own, two
siblings that may stand in either order are one and the same or have no fields.
-/

namespace DocModel.MetadataNode

theorem transCmp_compareLast {α : Type} (key : α → Option Int) :
    Std.TransCmp fun a b => compareLast (key a) (key b) where
  eq_swap := by
    intro a b
    cases key a <;> cases key b
    · rfl
    · rfl
    · rfl
    · exact Std.OrientedOrd.eq_swap
  isLE_trans := by
    intro a b c hab hbc
    cases ha : key a <;> cases hb : key b <;> cases hc : key c <;>
      simp only [compareLast, ha, hb, hc] at hab hbc ⊢
    all_goals first | exact Std.TransOrd.isLE_trans hab hbc | contradiction | rfl

/-- Ranks can be sorted by. -/
theorem isSortOrder_precedes (fields : List Field) : IsSortOrder (precedes fields) := by
  have horder := transCmp_compareLast fun node : MetadataNode => (node.rank fields).order
  have habsolute := transCmp_compareLast fun node : MetadataNode => (node.rank fields).absolute
  let compareRanks := compareLex
    (fun a b : MetadataNode => compareLast (a.rank fields).order (b.rank fields).order)
    fun a b => compareLast (a.rank fields).absolute (b.rank fields).absolute
  have hranks : Std.TransCmp compareRanks := inferInstance
  have hprecedes : ∀ a b, precedes fields a b = true ↔ (compareRanks a b).isLE = true := by
    intro a b
    rw [Ordering.isLE_iff_ne_gt]
    exact bne_iff_ne
  refine ⟨fun a b => ?_, fun a b c hab hbc => ?_⟩
  · rw [hprecedes, hprecedes]
    cases hab : compareRanks a b with
    | lt => exact .inl rfl
    | eq => exact .inl rfl
    | gt => exact .inr (Ordering.isLE_of_eq_lt (Std.OrientedCmp.lt_of_gt hab))
  · rw [hprecedes] at hab hbc ⊢
    exact Std.TransCmp.isLE_trans hab hbc

theorem compareLast_swap (a b : Option Int) : (compareLast a b).swap = compareLast b a :=
  (transCmp_compareLast id).eq_swap.symm

theorem compareLast_eq_eq_iff {a b : Option Int} : compareLast a b = .eq ↔ a = b := by
  cases a <;> cases b <;> simp [compareLast]

/-- Nodes that may stand in either order have the same rank. -/
theorem rank_eq_of_precedes {fields : List Field} {a b : MetadataNode}
    (hab : precedes fields a b = true) (hba : precedes fields b a = true) :
    a.rank fields = b.rank fields := by
  have hswap : ((a.rank fields).compare (b.rank fields)).swap =
      (b.rank fields).compare (a.rank fields) := by
    rw [Rank.compare, Ordering.swap_then, compareLast_swap, compareLast_swap, Rank.compare]
  rw [precedes, bne_iff_ne] at hab hba
  rw [← hswap] at hba
  have hequal : (a.rank fields).compare (b.rank fields) = .eq := by
    cases hcompare : (a.rank fields).compare (b.rank fields) with
    | eq => rfl
    | gt => exact absurd hcompare hab
    | lt =>
      rw [hcompare] at hba
      exact absurd rfl hba
  rw [Rank.compare, Ordering.then_eq_eq, compareLast_eq_eq_iff, compareLast_eq_eq_iff] at hequal
  obtain ⟨horder, habsolute⟩ := hequal
  calc a.rank fields = ⟨(a.rank fields).order, (a.rank fields).absolute⟩ := rfl
    _ = ⟨(b.rank fields).order, (b.rank fields).absolute⟩ := by rw [horder, habsolute]
    _ = b.rank fields := rfl

/-- A place leads to one field, and so to one path. -/
theorem fieldName_eq_of_rank_eq {fields : List Field} (hplaces : Field.HavePlaces fields)
    {a b : MetadataNode} (hrank : a.rank fields = b.rank fields) :
    a.fieldName = b.fieldName ∨
      a.fieldName ∉ fields.map (·.name) ∧ b.fieldName ∉ fields.map (·.name) := by
  have habsolute : (a.rank fields).absolute = (b.rank fields).absolute := by rw [hrank]
  have hplace := Option.map_injective (fun _ _ => Int.ofNat.inj) habsolute
  simp only [← Field.last?_eq_none_iff]
  cases ha : Field.last? fields a.fieldName with
  | none =>
    cases hb : Field.last? fields b.fieldName with
    | none => exact .inr ⟨rfl, rfl⟩
    | some field =>
      rw [ha, hb] at hplace
      exact absurd hplace.symm (hplaces.placed field (Field.mem_of_last?_eq_some hb))
  | some field =>
    cases hb : Field.last? fields b.fieldName with
    | none =>
      rw [ha, hb] at hplace
      exact absurd hplace (hplaces.placed field (Field.mem_of_last?_eq_some ha))
    | some other =>
      rw [ha, hb] at hplace
      have hfield := hplaces.eq_of_absoluteOrder_eq (Field.mem_of_last?_eq_some ha)
        (Field.mem_of_last?_eq_some hb) hplace
      left
      rw [← Field.name_of_last?_eq_some ha, ← Field.name_of_last?_eq_some hb, hfield]

end DocModel.MetadataNode
