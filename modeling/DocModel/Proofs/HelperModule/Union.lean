import DocModel.HelperModule.Registry
import DocModel.Proofs.Distinct
import DocModel.Proofs.Traversal

/-!
The helpers of modules that are used together: all of those that a registry knows under the names of the
modules, their names each once. One more module adds its own.
-/

namespace DocModel

namespace Registry

variable {registry : Registry}

theorem name_of_get? {name : String} {m : HelperModule} (hm : registry.get? name = some m) :
    m.name = name :=
  (of_find?_key_eq_some hm).2

theorem resolve_eq_ok_iff {name : String} {m : HelperModule} :
    registry.resolve name = .ok m ↔ registry.get? name = some m := by
  rw [resolve]
  cases registry.get? name with
  | none => exact iff_of_false nofun nofun
  | some other => simp

theorem mapM_resolve_eq_ok_iff {names : List String} {found : List HelperModule} :
    names.mapM registry.resolve = .ok found ↔ names.map registry.get? = found.map some := by
  induction names generalizing found with
  | nil => cases found <;> simp [pure, Except.pure]
  | cons name rest ih =>
    simp only [mapM_cons_eq_ok_iff, resolve_eq_ok_iff, ih]
    constructor
    · rintro ⟨m, others, hm, hothers, rfl⟩
      rw [List.map_cons, List.map_cons, hm, hothers]
    · intro hfound
      cases found with
      | nil => cases hfound
      | cons m others =>
        obtain ⟨hm, hothers⟩ := List.cons.inj hfound
        exact ⟨m, others, hm, hothers, rfl⟩

/-- The helpers of the module with a name, none if there is no such module. -/
def helpersOf (registry : Registry) (name : String) : List String :=
  ((registry.get? name).map (·.helpers)).getD []

theorem helpersOf_eq {name : String} {m : HelperModule} (hm : registry.get? name = some m) :
    registry.helpersOf name = m.helpers := by
  rw [helpersOf, hm]
  rfl

theorem mem_helpersOf {name helper : String} :
    helper ∈ registry.helpersOf name ↔ ∃ m, registry.get? name = some m ∧ helper ∈ m.helpers := by
  rw [helpersOf]
  cases registry.get? name <;> simp

theorem flatMap_helpersOf {names : List String} {found : List HelperModule}
    (hfound : names.map registry.get? = found.map some) :
    names.flatMap registry.helpersOf = found.flatMap (·.helpers) := by
  have hnames := List.flatMap_map registry.get?
    (fun m : Option HelperModule => (m.map (·.helpers)).getD []) (l := names)
  rw [hfound, List.flatMap_map] at hnames
  exact hnames.symm

theorem exists_map_get?_iff {names : List String} :
    (∃ found : List HelperModule, names.map registry.get? = found.map some) ↔
      ∀ name ∈ names, (registry.get? name).isSome := by
  constructor
  · rintro ⟨found, hfound⟩ name hname
    have hget := List.mem_map_of_mem (f := registry.get?) hname
    rw [hfound] at hget
    obtain ⟨m, _, hm⟩ := List.mem_map.mp hget
    rw [← hm]
    rfl
  · intro hregistered
    induction names with
    | nil => exact ⟨[], rfl⟩
    | cons name rest ih =>
      obtain ⟨hname, hrest⟩ := List.forall_mem_cons.mp hregistered
      obtain ⟨m, hm⟩ := Option.isSome_iff_exists.mp hname
      obtain ⟨others, hothers⟩ := ih hrest
      exact ⟨m :: others, by rw [List.map_cons, List.map_cons, hm, hothers]⟩

/-- Helper names are found exactly for modules all of which are registered, and are their union. -/
theorem helperNames_eq_ok_iff {names helpers : List String} :
    registry.helperNames names = .ok helpers ↔
      (∀ name ∈ names, (registry.get? name).isSome) ∧
        helpers = (names.flatMap registry.helpersOf).eraseDups := by
  rw [helperNames, bind_eq_ok_iff, ← exists_map_get?_iff]
  constructor
  · rintro ⟨found, hfound, hok⟩
    have hmap := mapM_resolve_eq_ok_iff.mp hfound
    cases hok
    exact ⟨⟨found, hmap⟩, by rw [flatMap_helpersOf hmap]⟩
  · rintro ⟨⟨found, hmap⟩, rfl⟩
    refine ⟨found, mapM_resolve_eq_ok_iff.mpr hmap, ?_⟩
    rw [flatMap_helpersOf hmap]
    rfl

theorem mem_helperNames {names helpers : List String}
    (hok : registry.helperNames names = .ok helpers) (helper : String) :
    helper ∈ helpers ↔
      ∃ name ∈ names, ∃ m, registry.get? name = some m ∧ helper ∈ m.helpers := by
  obtain ⟨_, rfl⟩ := helperNames_eq_ok_iff.mp hok
  simp only [List.mem_eraseDups, List.mem_flatMap, mem_helpersOf]

/-- One more module adds its own helpers to those of the others. -/
theorem helperNames_concat {names helpers : List String} {name : String} {m : HelperModule}
    (hok : registry.helperNames names = .ok helpers) (hm : registry.get? name = some m) :
    registry.helperNames (names ++ [name]) = .ok (helpers ++ m.helpers).eraseDups := by
  obtain ⟨hregistered, rfl⟩ := helperNames_eq_ok_iff.mp hok
  refine helperNames_eq_ok_iff.mpr ⟨?_, ?_⟩
  · refine List.forall_mem_append.mpr ⟨hregistered, ?_⟩
    simp [hm]
  · rw [eraseDups_eraseDups_append, List.flatMap_append, List.flatMap_singleton, helpersOf_eq hm]

/-- One more module adds its helpers to an engine with those of the others. -/
theorem engine_concat {names : List String} {engine : Engine} {name : String} {m : HelperModule}
    (hok : registry.engine names = .ok engine) (hm : registry.get? name = some m) :
    registry.engine (names ++ [name]) = .ok (m.addTo engine) := by
  obtain ⟨found, hfound, hok⟩ := bind_eq_ok_iff.mp hok
  cases hok
  have hall : (names ++ [name]).mapM registry.resolve = .ok (found ++ [m]) := by
    rw [mapM_resolve_eq_ok_iff, List.map_append, List.map_append,
      mapM_resolve_eq_ok_iff.mp hfound, List.map_singleton, List.map_singleton, hm]
  rw [Registry.engine, hall]
  simp [bind, Except.bind, pure, Except.pure]

end Registry

end DocModel
