import DocModel.Proofs.Document.Run
import DocModel.Proofs.Metadata.Pruning

/-!
Documents of a piece. The modules of a document are different, its helper names and its engine are
theirs, and its trie and its model are built from its other parts. Using modules keeps this, and says
what changes: names leave the model, and nothing else does.
-/

namespace DocModel.Document

/-- Uses some modules in order. -/
def useModules (doc : Document) (names : List String) : Except DocumentError Document :=
  names.foldlM useModule doc

/-- A document is of a piece: modules, helper names and the engine belong together as well. -/
structure Coherent (config : DocumentConfig) (registry : Registry) (doc : Document) : Prop extends
    BuiltUnder config doc where
  registry_eq : doc.registry = registry
  modules_nodup : doc.analysis.modules.Nodup
  helperNames_eq : registry.helperNames doc.analysis.modules = .ok doc.analysis.helperNames
  engine_eq : registry.engine doc.analysis.modules = .ok doc.engine

variable {config : DocumentConfig} {registry : Registry} {source : String} {doc next : Document}

theorem coherent_ofSource (hok : ofSource config registry source = .ok doc) :
    Coherent config registry doc := by
  have hdoc := builtUnder_ofSource hok
  obtain ⟨⟨analysis, nodes, engine⟩, hload, hok⟩ := bind_eq_ok_iff.mp hok
  cases hok
  obtain ⟨_, _, hbuilt, hengine⟩ := load_built hload
  obtain ⟨_, _, _, hmodules⟩ := hbuilt.settings_eq
  exact { hdoc with
    registry_eq := rfl
    modules_nodup := by
      change analysis.modules.Nodup
      rw [hmodules]
      exact nodup_eraseDups _
    helperNames_eq := hbuilt.helperNames_eq
    engine_eq := hengine }

theorem Coherent.setData (hdoc : Coherent config registry doc) (data : Json) :
    Coherent config registry (doc.setData data) :=
  ⟨⟨hdoc.config_eq, hdoc.trie_eq, hdoc.model_eq⟩, hdoc.registry_eq, hdoc.modules_nodup,
    hdoc.helperNames_eq, hdoc.engine_eq⟩

theorem Coherent.useModule (hdoc : Coherent config registry doc) {name : String}
    (hok : doc.useModule name = .ok next) : Coherent config registry next := by
  have hnext := hdoc.toBuiltUnder.useModule hok
  obtain ⟨m, hm, ⟨_, rfl⟩ | ⟨hnew, analysis, hanalysis, rfl⟩⟩ := useModule_eq_ok_iff.mp hok
  · exact hdoc
  · obtain ⟨model, _, rfl⟩ := Analysis.useModule_eq_ok_iff.mp hanalysis
    rw [hdoc.registry_eq] at hm
    have hname := Registry.name_of_get? hm
    refine { hnext with
      registry_eq := hdoc.registry_eq, modules_nodup := ?_, helperNames_eq := ?_, engine_eq := ?_ }
    · change (doc.analysis.modules ++ [m.name]).Nodup
      rw [hname]
      refine List.nodup_append.mpr ⟨hdoc.modules_nodup, List.pairwise_singleton _ name, ?_⟩
      intro used hused other hother hsame
      rw [List.mem_singleton.mp hother] at hsame
      exact hnew (hsame ▸ hused)
    · change registry.helperNames (doc.analysis.modules ++ [m.name]) = _
      rw [hname]
      exact Registry.helperNames_concat hdoc.helperNames_eq hm
    · change registry.engine (doc.analysis.modules ++ [m.name]) = _
      rw [hname]
      exact Registry.engine_concat hdoc.engine_eq hm

/-- A module that is not in use yet takes the nodes that are named like its helpers out of the
model. -/
theorem Coherent.useModule_eq_ok (hdoc : Coherent config registry doc) {name : String}
    {m : HelperModule} (hm : registry.get? name = some m) (hnew : name ∉ doc.analysis.modules) :
    doc.useModule name = .ok { doc with
      analysis := { doc.analysis with
        modules := doc.analysis.modules ++ [name]
        helperNames := (doc.analysis.helperNames ++ m.helpers).eraseDups
        model := MetadataNode.unnamed m.helpers doc.analysis.model }
      engine := m.addTo doc.engine } := by
  have hmodel := MetadataNode.model_append hdoc.model_eq m.helpers
  rw [← hdoc.config_eq] at hmodel
  have hanalysis := Analysis.useModule_eq_ok_iff.mpr ⟨_, hmodel, rfl⟩
  rw [Registry.name_of_get? hm] at hanalysis
  rw [← hdoc.registry_eq] at hm
  exact useModule_eq_ok_iff.mpr ⟨m, hm, .inr ⟨hnew, _, hanalysis, rfl⟩⟩

/-- A module that is in use already changes nothing. -/
theorem Coherent.useModule_eq_self (hdoc : Coherent config registry doc) {name : String}
    (hused : name ∈ doc.analysis.modules) : doc.useModule name = .ok doc := by
  have hregistered := (Registry.helperNames_eq_ok_iff.mp hdoc.helperNames_eq).1 name hused
  obtain ⟨m, hm⟩ := Option.isSome_iff_exists.mp hregistered
  rw [← hdoc.registry_eq] at hm
  exact useModule_eq_ok_iff.mpr ⟨m, hm, .inl ⟨hused, rfl⟩⟩

/-- Every module of the registry can be used. -/
theorem Coherent.exists_useModule (hdoc : Coherent config registry doc) {name : String}
    {m : HelperModule} (hm : registry.get? name = some m) :
    ∃ next, doc.useModule name = .ok next := by
  by_cases hused : name ∈ doc.analysis.modules
  · exact ⟨doc, hdoc.useModule_eq_self hused⟩
  · exact ⟨_, hdoc.useModule_eq_ok hm hused⟩

theorem Coherent.useModules (hdoc : Coherent config registry doc) {names : List String}
    (hok : doc.useModules names = .ok next) : Coherent config registry next := by
  induction names generalizing doc with
  | nil =>
    cases hok
    exact hdoc
  | cons name rest ih =>
    obtain ⟨middle, hname, hrest⟩ := bind_eq_ok_iff.mp hok
    exact ih (hdoc.useModule hname) hrest

/-- Two analyses differ at most in their modules and in what follows from these. -/
structure SameTemplate (analysis other : Analysis) : Prop where
  directives_eq : analysis.directives = other.directives
  paths_eq : analysis.paths = other.paths
  trie_eq : analysis.trie = other.trie
  fields_eq : analysis.fields = other.fields
  options_eq : analysis.options = other.options
  settings_eq : analysis.settings = other.settings

/-- Modules that are used come behind those in use, each once; what says nothing about modules stays. -/
theorem Coherent.useModules_analysis (hdoc : Coherent config registry doc) {names : List String}
    (hok : doc.useModules names = .ok next) :
    next.analysis.modules = (doc.analysis.modules ++ names).eraseDups ∧
      SameTemplate next.analysis doc.analysis := by
  induction names generalizing doc with
  | nil =>
    cases hok
    rw [List.append_nil, eraseDups_eq_self hdoc.modules_nodup]
    exact ⟨rfl, rfl, rfl, rfl, rfl, rfl, rfl⟩
  | cons name rest ih =>
    obtain ⟨middle, hname, hrest⟩ := bind_eq_ok_iff.mp hok
    obtain ⟨hmodules, hsame⟩ := ih (hdoc.useModule hname) hrest
    obtain ⟨m, hm, ⟨hused, rfl⟩ | ⟨hnew, analysis, hanalysis, rfl⟩⟩ :=
      useModule_eq_ok_iff.mp hname
    · have hskipped : (name :: rest).removeAll middle.analysis.modules =
          rest.removeAll middle.analysis.modules := List.filter_cons_of_neg (by simp [hused])
      refine ⟨?_, hsame⟩
      rw [hmodules, List.eraseDups_append, List.eraseDups_append, hskipped]
    · obtain ⟨model, _, rfl⟩ := Analysis.useModule_eq_ok_iff.mp hanalysis
      refine ⟨?_, hsame.directives_eq, hsame.paths_eq, hsame.trie_eq, hsame.fields_eq, hsame.options_eq,
        hsame.settings_eq⟩
      rw [hmodules, Registry.name_of_get? hm, List.append_assoc]
      rfl

end DocModel.Document
