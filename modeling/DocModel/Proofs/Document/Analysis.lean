import DocModel.Document
import DocModel.Proofs.Traversal

/-!
What an analysis consists of. Every part is built from the parts before it, and an analysis succeeds
exactly when all of its parts do.
-/

namespace DocModel.Analysis

/-- The parts of the analysis of some nodes. -/
structure BuiltFrom (config : DocumentConfig) (registry : Registry) (nodes : List Template.Node)
    (analysis : Analysis) : Prop where
  directives_eq : Template.directives nodes config.strictDirectives = .ok analysis.directives
  paths_eq : analysis.paths = Template.paths nodes
  trie_eq : PathTrie.ofPaths analysis.paths config.maxDepth = .ok analysis.trie
  fields_eq : Field.compileAll analysis.directives = .ok (analysis.fields, analysis.options)
  settings_eq : ∃ declared, DocumentSettings.ofDirectives analysis.directives = .ok declared ∧
    analysis.settings = titled config (Template.texts nodes) declared ∧
    analysis.modules = (config.defaultModules ++ declared.modules).eraseDups
  helperNames_eq : registry.helperNames analysis.modules = .ok analysis.helperNames
  model_eq : MetadataNode.model analysis.trie analysis.fields analysis.helperNames
    config.maxDepth = .ok analysis.model

variable {config : DocumentConfig} {registry : Registry} {nodes : List Template.Node}
  {analysis : Analysis}

theorem ofNodes_eq_ok_iff :
    ofNodes config registry nodes = .ok analysis ↔ BuiltFrom config registry nodes analysis := by
  constructor
  · intro hok
    obtain ⟨directives, hdirectives, hok⟩ := bind_eq_ok_iff.mp hok
    obtain ⟨trie, htrie, hok⟩ := bind_eq_ok_iff.mp hok
    obtain ⟨⟨fields, options⟩, hfields, hok⟩ := bind_eq_ok_iff.mp hok
    obtain ⟨declared, hdeclared, hok⟩ := bind_eq_ok_iff.mp hok
    obtain ⟨helperNames, hhelperNames, hok⟩ := bind_eq_ok_iff.mp hok
    obtain ⟨model, hmodel, hok⟩ := bind_eq_ok_iff.mp hok
    cases hok
    exact {
      directives_eq := mapError_eq_ok_iff.mp hdirectives
      paths_eq := rfl
      trie_eq := mapError_eq_ok_iff.mp htrie
      fields_eq := mapError_eq_ok_iff.mp hfields
      settings_eq := ⟨declared, hdeclared, rfl, rfl⟩
      helperNames_eq := hhelperNames
      model_eq := mapError_eq_ok_iff.mp hmodel }
  · rintro ⟨hdirectives, hpaths, htrie, hfields, ⟨declared, hdeclared, hsettings, hmodules⟩,
      hhelperNames, hmodel⟩
    obtain ⟨directives, paths, trie, fields, options, settings, modules, helperNames, model⟩ :=
      analysis
    simp only at hdirectives hpaths htrie hfields hdeclared hsettings hmodules hhelperNames hmodel
    subst hpaths hsettings hmodules
    exact bind_eq_ok_iff.mpr ⟨directives, mapError_eq_ok_iff.mpr hdirectives,
      bind_eq_ok_iff.mpr ⟨trie, mapError_eq_ok_iff.mpr htrie,
      bind_eq_ok_iff.mpr ⟨(fields, options), mapError_eq_ok_iff.mpr hfields,
      bind_eq_ok_iff.mpr ⟨declared, hdeclared,
      bind_eq_ok_iff.mpr ⟨helperNames, hhelperNames,
      bind_eq_ok_iff.mpr ⟨model, mapError_eq_ok_iff.mpr hmodel, rfl⟩⟩⟩⟩⟩⟩

/-- The parts of an analysis with one more module. -/
theorem useModule_eq_ok_iff {m : HelperModule} {next : Analysis} :
    analysis.useModule config m = .ok next ↔
      ∃ model, MetadataNode.model analysis.trie analysis.fields
          (analysis.helperNames ++ m.helpers).eraseDups config.maxDepth = .ok model ∧
        next = { analysis with
          modules := analysis.modules ++ [m.name]
          helperNames := (analysis.helperNames ++ m.helpers).eraseDups
          model } := by
  rw [Analysis.useModule, bind_eq_ok_iff]
  simp only [mapError_eq_ok_iff, pure, Except.pure, Except.ok.injEq, eq_comm (b := next)]

end DocModel.Analysis
