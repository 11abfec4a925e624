import DocModel.Proofs.Document.Analysis
import DocModel.Proofs.HelperModule.Union
import Mathlib

/-!
Documents that are changed. A document is asked to change any number of times, and a change that fails
leaves it as it was; the trie and the model of its analysis belong together all the while.
-/

namespace DocModel

namespace Document

/-- A change that a document can be asked for. -/
inductive Change where
  | setTemplate (source : String)
  | useModule (name : String)
  | setData (data : Json)

/-- The document with a change, if that does not fail. -/
def attempt (doc : Document) : Change → Except DocumentError Document
  | .setTemplate source => doc.setTemplate source
  | .useModule name => doc.useModule name
  | .setData data => .ok (doc.setData data)

/-- The document after a change was asked for: as it was, if the change fails. -/
def step (doc : Document) (change : Change) : Document :=
  match doc.attempt change with
  | .ok next => next
  | .error _ => doc

/-- The document after some changes were asked for in order. -/
def run (doc : Document) (changes : List Change) : Document :=
  changes.foldl step doc

/-- What every change that succeeds keeps, a document keeps whatever it is asked for. -/
theorem run_invariant {P : Document → Prop}
    (hkeep : ∀ doc change next, P doc → doc.attempt change = .ok next → P next)
    {doc : Document} (changes : List Change) (hdoc : P doc) : P (doc.run changes) := by
  induction changes generalizing doc with
  | nil => exact hdoc
  | cons change rest ih =>
    change P ((doc.step change).run rest)
    apply ih
    rw [step]
    cases hattempt : doc.attempt change with
    | error error => exact hdoc
    | ok next => exact hkeep doc change next hdoc hattempt

/-- The configuration is the given one, and trie and model are those of the paths, the fields and the
helper names of the analysis. -/
structure BuiltUnder (config : DocumentConfig) (doc : Document) : Prop where
  config_eq : doc.config = config
  trie_eq : PathTrie.ofPaths doc.analysis.paths config.maxDepth = .ok doc.analysis.trie
  model_eq : MetadataNode.model doc.analysis.trie doc.analysis.fields doc.analysis.helperNames
    config.maxDepth = .ok doc.analysis.model

theorem load_built {config : DocumentConfig} {registry : Registry} {source : String}
    {analysis : Analysis} {nodes : List Template.Node} {engine : Engine}
    (hok : load config registry source = .ok (analysis, nodes, engine)) :
    ∃ read, Template.parse source = .ok read ∧
      analysis.BuiltFrom config registry (Template.analysed read) ∧
      registry.engine analysis.modules = .ok engine := by
  obtain ⟨read, hread, hok⟩ := bind_eq_ok_iff.mp hok
  obtain ⟨found, hfound, hok⟩ := bind_eq_ok_iff.mp hok
  obtain ⟨helpers, hhelpers, hok⟩ := bind_eq_ok_iff.mp hok
  cases hok
  exact ⟨read, mapError_eq_ok_iff.mp hread, Analysis.ofNodes_eq_ok_iff.mp hfound, hhelpers⟩

theorem builtUnder_ofSource {config : DocumentConfig} {registry : Registry} {source : String}
    {doc : Document} (hok : ofSource config registry source = .ok doc) :
    BuiltUnder config doc := by
  obtain ⟨⟨analysis, nodes, engine⟩, hload, hok⟩ := bind_eq_ok_iff.mp hok
  cases hok
  obtain ⟨_, _, hbuilt, _⟩ := load_built hload
  exact ⟨rfl, hbuilt.trie_eq, hbuilt.model_eq⟩

variable {config : DocumentConfig} {doc next : Document}

theorem BuiltUnder.setTemplate (hdoc : BuiltUnder config doc) {source : String}
    (hok : doc.setTemplate source = .ok next) : BuiltUnder config next := by
  obtain ⟨⟨analysis, nodes, engine⟩, hload, hok⟩ := bind_eq_ok_iff.mp hok
  cases hok
  rw [hdoc.config_eq] at hload
  obtain ⟨_, _, hbuilt, _⟩ := load_built hload
  exact ⟨hdoc.config_eq, hbuilt.trie_eq, hbuilt.model_eq⟩

/-- A module that is used needs a place in the registry. It changes nothing if it was in use before;
otherwise its helpers leave the model. -/
theorem useModule_eq_ok_iff {name : String} :
    doc.useModule name = .ok next ↔
      ∃ m, doc.registry.get? name = some m ∧
        ((name ∈ doc.analysis.modules ∧ next = doc) ∨
          (name ∉ doc.analysis.modules ∧
            ∃ analysis, doc.analysis.useModule doc.config m = .ok analysis ∧
              next = { doc with analysis, engine := m.addTo doc.engine })) := by
  rw [Document.useModule, bind_eq_ok_iff]
  refine exists_congr fun m => and_congr Registry.resolve_eq_ok_iff ?_
  by_cases hused : name ∈ doc.analysis.modules
  · simp [hused, pure, Except.pure, eq_comm (b := next)]
  · simp [hused, bind_eq_ok_iff, pure, Except.pure, eq_comm (b := next)]

theorem BuiltUnder.useModule (hdoc : BuiltUnder config doc) {name : String}
    (hok : doc.useModule name = .ok next) : BuiltUnder config next := by
  obtain ⟨m, _, ⟨_, rfl⟩ | ⟨_, analysis, hanalysis, rfl⟩⟩ := useModule_eq_ok_iff.mp hok
  · exact hdoc
  · obtain ⟨model, hmodel, rfl⟩ := Analysis.useModule_eq_ok_iff.mp hanalysis
    rw [hdoc.config_eq] at hmodel
    exact ⟨hdoc.config_eq, hdoc.trie_eq, hmodel⟩

theorem BuiltUnder.attempt (hdoc : BuiltUnder config doc) {change : Change}
    (hok : doc.attempt change = .ok next) : BuiltUnder config next := by
  cases change with
  | setTemplate source => exact hdoc.setTemplate hok
  | useModule name => exact hdoc.useModule hok
  | setData data =>
    cases hok
    exact ⟨hdoc.config_eq, hdoc.trie_eq, hdoc.model_eq⟩

/-- Whatever changes are asked for, and whichever of them fail, the analysis stays of a piece. -/
theorem BuiltUnder.run (hdoc : BuiltUnder config doc) (changes : List Change) :
    BuiltUnder config (doc.run changes) :=
  run_invariant (fun _ _ _ hdoc hok => hdoc.attempt hok) changes hdoc

theorem exists_ofSource_guestName :
    ∃ doc, ofSource { DocumentConfig.default with maxDepth := 2 } .builtin
      "{{ guest.name }}" = .ok doc := by
  have hread : Template.parse "{{ guest.name }}" =
      .ok [.output .none (.mk (.name "guest.name") [] false)] := by cbv
  apply exists_eq_ok_of_isOk
  rw [ofSource, load, hread]
  decide +kernel

end Document

end DocModel
