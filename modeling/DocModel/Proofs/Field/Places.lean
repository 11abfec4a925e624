import DocModel.FieldList
import DocModel.Proofs.Distinct
import DocModel.Proofs.Traversal
import Mathlib.Data.List.Nodup

/-!
The places of compiled fields, and the field that counts for a name. Every compiled field has a place of
its own, even if another one has its name.
-/

namespace DocModel.Field

theorem map_absoluteOrder_placedFrom (start : Nat) (fields : List Field) :
    (placedFrom start fields).map (·.absoluteOrder) =
      (List.range' start fields.length).map some := by
  induction fields generalizing start with
  | nil => rfl
  | cons field rest ih =>
    rw [placedFrom, List.map_cons, ih, List.length_cons, List.range'_succ, List.map_cons]

/-- Every one of some fields has a place, and no two of them have the same. -/
structure HavePlaces (fields : List Field) : Prop where
  placed : ∀ field ∈ fields, field.absoluteOrder ≠ none
  distinct : (fields.map (·.absoluteOrder)).Nodup

theorem havePlaces_applyAbsoluteOrder (fields : List Field) :
    HavePlaces (applyAbsoluteOrder fields) := by
  have hplaces := map_absoluteOrder_placedFrom 0 fields
  constructor
  case placed =>
    intro field hfield
    have hplace := List.mem_map_of_mem (f := fun field : Field => field.absoluteOrder) hfield
    rw [applyAbsoluteOrder, hplaces] at hplace
    obtain ⟨_, _, hplace⟩ := List.mem_map.mp hplace
    exact hplace ▸ Option.some_ne_none _
  case distinct =>
    rw [applyAbsoluteOrder, hplaces]
    exact (List.nodup_range' ..).map fun _ _ => Option.some.inj

theorem havePlaces_of_compileAll {directives : List Directive} {fields : List Field}
    {options : List FieldOption} (hok : compileAll directives = .ok (fields, options)) :
    HavePlaces fields := by
  obtain ⟨declared, _, hok⟩ := bind_eq_ok_iff.mp hok
  cases hok
  exact havePlaces_applyAbsoluteOrder _

theorem HavePlaces.eq_of_absoluteOrder_eq {fields : List Field} (hfields : HavePlaces fields)
    {field other : Field} (hfield : field ∈ fields) (hother : other ∈ fields)
    (hplace : field.absoluteOrder = other.absoluteOrder) : field = other :=
  List.inj_on_of_nodup_map hfields.distinct hfield hother hplace

section Last

variable {fields : List Field} {name : String} {field : Field}

theorem last?_eq_none_iff : last? fields name = none ↔ name ∉ fields.map (·.name) := by
  simp [last?, List.find?_eq_none]

theorem mem_of_last?_eq_some (hlast : last? fields name = some field) : field ∈ fields :=
  List.mem_reverse.mp (of_find?_key_eq_some hlast).1

theorem name_of_last?_eq_some (hlast : last? fields name = some field) : field.name = name :=
  (of_find?_key_eq_some hlast).2

end Last

end DocModel.Field
