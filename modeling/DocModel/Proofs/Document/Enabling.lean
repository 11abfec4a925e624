import DocModel.Proofs.Directive.Use
import DocModel.Proofs.Document.Depth
import DocModel.Proofs.Document.History
import DocModel.Proofs.Template.Comments

/-!
Modules that come into use while a document is there. They take nodes out of its model, and the document
is then the one that is built when its template uses them itself, in comments at its end. That needs
names that stand for themselves in such a comment.
-/

namespace DocModel

/-- A comment that uses one module. -/
def useComment (name : String) : Template.Node := Template.plainComment (Directive.useText name)

namespace Analysis.BuiltFrom

variable {config : DocumentConfig} {registry : Registry} {nodes : List Template.Node}
  {analysis : Analysis}

/-- The modules of an analysis with comments behind its nodes come behind its own, and the model is
that of its own trie and fields for the helpers of all of them. -/
theorem exists_ofNodes_append (hbuilt : analysis.BuiltFrom config registry nodes)
    {names helperNames : List String} (hnames : ∀ name ∈ names, IsListedName name)
    (hhelperNames : registry.helperNames (analysis.modules ++ names).eraseDups = .ok helperNames) :
    ∃ rebuilt, ofNodes config registry (nodes ++ names.map useComment) = .ok rebuilt ∧
      rebuilt.modules = (analysis.modules ++ names).eraseDups ∧
      rebuilt.helperNames = helperNames ∧
      MetadataNode.model analysis.trie analysis.fields helperNames config.maxDepth =
        .ok rebuilt.model := by
  obtain ⟨declared, hdeclared, _, hmodules⟩ := hbuilt.settings_eq
  obtain ⟨model, hmodel⟩ :=
    MetadataNode.exists_model_of_ofPaths hbuilt.trie_eq analysis.fields helperNames
  have hcomments : names.map useComment = (names.map Directive.useText).map Template.plainComment :=
    List.map_map.symm
  let rebuilt : Analysis := { analysis with
    directives := analysis.directives ++ names.map Directive.use
    settings := titled config
      (Template.texts (nodes ++ names.map useComment))
      { declared with modules := declared.modules ++ names }
    modules := (analysis.modules ++ names).eraseDups
    helperNames
    model }
  refine ⟨rebuilt, ofNodes_eq_ok_iff.mpr ?_, rfl, rfl, hmodel⟩
  constructor
  case directives_eq =>
    rw [Template.directives, hcomments, Template.comments_append_plainComments]
    exact Directive.parseAll_append_useText hbuilt.directives_eq
      fun name hname => (hnames name hname).no_quote
  case paths_eq =>
    rw [hcomments, Template.paths_append_plainComments]
    exact hbuilt.paths_eq
  case trie_eq => exact hbuilt.trie_eq
  case fields_eq =>
    change Field.compileAll (analysis.directives ++ names.map Directive.use) = _
    rw [Field.compileAll_append_use]
    exact hbuilt.fields_eq
  case settings_eq =>
    refine ⟨_, DocumentSettings.ofDirectives_append_use hdeclared hnames, rfl, ?_⟩
    change (analysis.modules ++ names).eraseDups = _
    rw [hmodules, eraseDups_eraseDups_append, List.append_assoc]
  case helperNames_eq => exact hhelperNames
  case model_eq => exact hmodel

end Analysis.BuiltFrom

namespace Document

variable {config : DocumentConfig} {registry : Registry} {source : String} {doc next : Document}

theorem ofSource_built (hok : ofSource config registry source = .ok doc) :
    ∃ read, Template.parse source = .ok read ∧
      doc.analysis.BuiltFrom config registry (Template.analysed read) := by
  obtain ⟨⟨analysis, nodes, engine⟩, hload, hok⟩ := bind_eq_ok_iff.mp hok
  cases hok
  obtain ⟨read, hread, hbuilt, _⟩ := load_built hload
  exact ⟨read, hread, hbuilt⟩

/-- The modules that came into use behind those of an analysis since the last template was loaded. -/
def enabledSince (loaded : Analysis) (history : List Change) : List String :=
  ((usedSince history).removeAll loaded.modules).eraseDups

/-- The analysis of the last template, from which the present one differs only by the modules that
came into use since. -/
theorem exists_loaded (hdoc : ofSource config registry source = .ok doc) (changes : List Change) :
    ∃ read loaded, Template.parse (lastSource source (doc.carriedOut changes)) = .ok read ∧
      loaded.BuiltFrom config registry (Template.analysed read) ∧
      (doc.run changes).analysis.modules =
        loaded.modules ++ enabledSince loaded (doc.carriedOut changes) ∧
      (doc.run changes).analysis.trie = loaded.trie ∧
      (doc.run changes).analysis.fields = loaded.fields := by
  obtain ⟨loaded, enabled, hloaded, henabled, hrun⟩ :=
    replay hdoc (foldlM_attempt_carriedOut doc changes)
  have hcoherent := coherent_ofSource hloaded
  obtain ⟨read, hread, hbuilt⟩ := ofSource_built hloaded
  obtain ⟨hmodules, hsame⟩ := hcoherent.useModules_analysis henabled
  rw [List.eraseDups_append, eraseDups_eq_self hcoherent.modules_nodup] at hmodules
  rw [hrun]
  exact ⟨read, loaded.analysis, hread, hbuilt, hmodules, hsame.trie_eq, hsame.fields_eq⟩

/-- A document is the one that is built from its template with a comment behind it for each of its
further modules. -/
theorem Coherent.exists_rebuilt (hdoc : Coherent config registry doc) {nodes : List Template.Node}
    {loaded : Analysis} {added : List String} (hbuilt : loaded.BuiltFrom config registry nodes)
    (hmodules : doc.analysis.modules = loaded.modules ++ added)
    (htrie : doc.analysis.trie = loaded.trie) (hfields : doc.analysis.fields = loaded.fields)
    (hadded : ∀ name ∈ added, IsListedName name) :
    ∃ rebuilt, Analysis.ofNodes config registry (nodes ++ added.map useComment) = .ok rebuilt ∧
      rebuilt.modules = doc.analysis.modules ∧
      rebuilt.helperNames = doc.analysis.helperNames ∧
      rebuilt.model = doc.analysis.model ∧
      registry.engine rebuilt.modules = .ok doc.engine := by
  -- No module of the document stands twice, so that taking each of them once changes nothing.
  have hlisted : (loaded.modules ++ added).eraseDups = doc.analysis.modules := by
    rw [← hmodules, eraseDups_eq_self hdoc.modules_nodup]
  have hhelperNames := hdoc.helperNames_eq
  rw [← hlisted] at hhelperNames
  obtain ⟨rebuilt, hrebuilt, hsame, hsameHelpers, hmodel⟩ :=
    hbuilt.exists_ofNodes_append hadded hhelperNames
  have hsameModules := hsame.trans hlisted
  rw [← htrie, ← hfields, hdoc.model_eq] at hmodel
  refine ⟨rebuilt, hrebuilt, hsameModules, hsameHelpers, (Except.ok.inj hmodel).symm, ?_⟩
  rw [hsameModules]
  exact hdoc.engine_eq

theorem Coherent.validate_eq_flatMap (hdoc : Coherent config registry doc)
    (hpositive : 1 ≤ config.maxDepth) (data : Json) :
    doc.validate data = .ok (doc.analysis.model.flatMap (Validation.nodeFaults data)) :=
  hdoc.toBuiltUnder.validate_eq_ok hpositive data

theorem Coherent.validate_node (hdoc : Coherent config registry doc)
    (hpositive : 1 ≤ config.maxDepth) (data : Json) {node : MetadataNode}
    (hnode : node ∈ doc.analysis.model) :
    DocModel.validate data [node] config.maxDepth = .ok (Validation.nodeFaults data node) := by
  have hheight := MetadataNode.height_le_of_model hdoc.model_eq node hnode
  rw [validate_eq_ok hpositive (by simpa using hheight)]
  exact congrArg Except.ok (List.flatMap_singleton _ node)

/-- Using a module that is registered but not in use succeeds. Exactly the top nodes that are named like
its helpers leave the model, and with them exactly their faults leave every validation. If the module
and those that came into use since the last template was loaded have names that stand for themselves,
then what comes out is what is built from that template with one comment behind it for each of them.
Using a module again changes nothing. -/
theorem useModule_eq_rebuilt (hpositive : 1 ≤ config.maxDepth)
    (hdoc : ofSource config registry source = .ok doc) (changes : List Change) :
    (∀ name m, registry.get? name = some m → name ∉ (doc.run changes).analysis.modules →
      ∃ next, (doc.run changes).useModule name = .ok next ∧
        next.analysis.model = MetadataNode.unnamed m.helpers (doc.run changes).analysis.model ∧
        (∃ read loaded,
          Template.parse (lastSource source (doc.carriedOut changes)) = .ok read ∧
          Analysis.ofNodes config registry (Template.analysed read) = .ok loaded ∧
          (doc.run changes).analysis.modules =
            loaded.modules ++ enabledSince loaded (doc.carriedOut changes) ∧
          ((∀ used ∈ enabledSince loaded (doc.carriedOut changes) ++ [name], IsListedName used) →
            ∃ rebuilt, Analysis.ofNodes config registry (Template.analysed read ++
                (enabledSince loaded (doc.carriedOut changes) ++ [name]).map useComment) =
                .ok rebuilt ∧
              rebuilt.modules = next.analysis.modules ∧
              rebuilt.helperNames = next.analysis.helperNames ∧
              rebuilt.model = next.analysis.model ∧
              registry.engine rebuilt.modules = .ok next.engine)) ∧
        (∀ data, ∃ errorsOf : MetadataNode → List ValidationError,
          (∀ node ∈ (doc.run changes).analysis.model,
            DocModel.validate data [node] config.maxDepth = .ok (errorsOf node)) ∧
          (doc.run changes).validate data =
            .ok ((doc.run changes).analysis.model.flatMap errorsOf) ∧
          next.validate data = .ok (next.analysis.model.flatMap errorsOf)) ∧
        next.useModule name = .ok next) ∧
    ∀ name ∈ (doc.run changes).analysis.modules,
      (doc.run changes).useModule name = .ok (doc.run changes) := by
  have hcoherent := (coherent_ofSource hdoc).run changes
  refine ⟨fun name m hm hnew => ?_, fun name hused => hcoherent.useModule_eq_self hused⟩
  have huse := hcoherent.useModule_eq_ok hm hnew
  have hnext := hcoherent.useModule huse
  refine ⟨_, huse, rfl, ?_, fun data => ?_, ?_⟩
  · obtain ⟨read, loaded, hread, hbuilt, hmodules, htrie, hfields⟩ := exists_loaded hdoc changes
    have hadded : (doc.run changes).analysis.modules ++ [name] =
        loaded.modules ++ (enabledSince loaded (doc.carriedOut changes) ++ [name]) := by
      rw [hmodules, List.append_assoc]
    exact ⟨read, loaded, hread, Analysis.ofNodes_eq_ok_iff.mpr hbuilt, hmodules,
      hnext.exists_rebuilt hbuilt hadded htrie hfields⟩
  · exact ⟨Validation.nodeFaults data, fun node hnode => hcoherent.validate_node hpositive data hnode,
      hcoherent.validate_eq_flatMap hpositive data, hnext.validate_eq_flatMap hpositive data⟩
  · exact hnext.useModule_eq_self (List.mem_append_right _ (List.mem_singleton_self name))

/-- Modules whose only helper is `a`, under names of which the last one alone stands for itself. -/
def stubRegistry : Registry :=
  ["", "b,c", "shout"].foldl (fun registry name => registry.register (.ofNames name ["a"])) .empty

/-- The syntax tree of `{{ a }}`. -/
def outputOfA : List Template.Node := [.output .none (.mk (.name "a") [] false)]

theorem parse_outputOfA : Template.parse "{{ a }}" = .ok outputOfA := by cbv

theorem exists_ofSource_outputOfA :
    ∃ doc, ofSource .default stubRegistry "{{ a }}" = .ok doc ∧
      doc.analysis.modules = [] ∧ doc.analysis.model.map (·.name) = ["a"] := by
  have hsummary : (ofSource .default stubRegistry "{{ a }}").toOption.map (fun doc =>
      (doc.analysis.modules, doc.analysis.model.map (·.name))) = some ([], ["a"]) := by
    rw [ofSource, load, parse_outputOfA]
    decide +kernel
  obtain ⟨doc, hdoc, hparts⟩ := Option.map_eq_some_iff.mp hsummary
  obtain ⟨hmodules, hmodel⟩ := Prod.mk.inj hparts
  exact ⟨doc, eq_ok_of_toOption_eq_some hdoc, hmodules, hmodel⟩

theorem isListedName_shout : IsListedName "shout" :=
  ⟨by decide, by decide, by decide, by decide⟩

/-- The helper `a` leaves the model when its module comes into use, and the comment that uses the module
has the same effect. -/
theorem useModule_eq_rebuilt_shout :
    ∃ doc next rebuilt, ofSource .default stubRegistry "{{ a }}" = .ok doc ∧
      1 ≤ DocumentConfig.default.maxDepth ∧ doc.useModule "shout" = .ok next ∧
      Analysis.ofNodes .default stubRegistry
        (Template.analysed outputOfA ++ [useComment "shout"]) = .ok rebuilt ∧
      rebuilt.modules = next.analysis.modules ∧ rebuilt.model = next.analysis.model ∧
      doc.analysis.model.map (·.name) = ["a"] ∧ next.analysis.model.map (·.name) = [] := by
  obtain ⟨doc, hdoc, hmodules, hmodel⟩ := exists_ofSource_outputOfA
  have hnew : "shout" ∉ (doc.run []).analysis.modules := by
    change "shout" ∉ doc.analysis.modules
    simp [hmodules]
  obtain ⟨next, huse, hpruned, ⟨read, loaded, hread, _, _, hlisted⟩, _⟩ :=
    (useModule_eq_rebuilt (by decide) hdoc []).1 "shout" (.ofNames "shout" ["a"]) rfl hnew
  cases hread.symm.trans parse_outputOfA
  obtain ⟨rebuilt, hrebuilt, hsame, _, hsameModel, _⟩ := hlisted fun name hname => by
    rw [List.mem_singleton.mp hname]
    exact isListedName_shout
  refine ⟨doc, next, rebuilt, hdoc, by decide, huse, hrebuilt, hsame, hsameModel, hmodel, ?_⟩
  rw [hpruned, MetadataNode.map_name_unnamed]
  change (doc.analysis.model.map (·.name)).filter _ = []
  rw [hmodel]
  rfl

/-- The empty name has no quotation mark, comma or blank in it, yet a comment with it uses nothing, while
the module of that name can be used. And a name with a comma that came into use before makes
the comments fail for any later module. -/
theorem useModule_ne_rebuilt_unlisted :
    ∃ doc next rebuilt later, ofSource .default stubRegistry "{{ a }}" = .ok doc ∧
      Template.parse "{{ a }}" = .ok outputOfA ∧
      ('"' ∉ "".toList ∧ ',' ∉ "".toList ∧ Text.trim "".toList = "".toList ∧
        "" ∉ doc.analysis.modules ∧ doc.useModule "" = .ok next ∧
        Analysis.ofNodes .default stubRegistry
          (Template.analysed outputOfA ++ [useComment ""]) = .ok rebuilt ∧
        next.analysis.modules = [""] ∧ rebuilt.modules = [] ∧
        next.analysis.model.map (·.name) = [] ∧ rebuilt.model.map (·.name) = ["a"]) ∧
      IsListedName "shout" ∧ (doc.run [.useModule "b,c"]).analysis.modules = ["b,c"] ∧
      (doc.run [.useModule "b,c"]).useModule "shout" = .ok later ∧
      ¬ ∃ rebuilt, Analysis.ofNodes .default stubRegistry
        (Template.analysed outputOfA ++ [useComment "b,c", useComment "shout"]) = .ok rebuilt := by
  obtain ⟨doc, hdoc, hmodules, hmodel⟩ := exists_ofSource_outputOfA
  have hcoherent := coherent_ofSource hdoc
  have hnew : ∀ name, name ∉ doc.analysis.modules := by simp [hmodules]
  have huse := hcoherent.useModule_eq_ok (m := .ofNames "" ["a"]) rfl (hnew "")
  have hsummary : (Analysis.ofNodes .default stubRegistry
      (Template.analysed outputOfA ++ [useComment ""])).toOption.map (fun analysis =>
        (analysis.modules, analysis.model.map (·.name))) = some ([], ["a"]) := by
    decide +kernel
  obtain ⟨rebuilt, hrebuilt, hparts⟩ := Option.map_eq_some_iff.mp hsummary
  obtain ⟨hrebuiltModules, hrebuiltModel⟩ := Prod.mk.inj hparts
  have hcomma := hcoherent.useModule_eq_ok (m := .ofNames "b,c" ["a"]) rfl (hnew "b,c")
  have hrun : (doc.run [.useModule "b,c"]).analysis.modules = ["b,c"] := by
    rw [run_singleton_of_ok (show doc.attempt (.useModule "b,c") = _ from hcomma)]
    exact congrArg (· ++ ["b,c"]) hmodules
  obtain ⟨later, hlater⟩ := ((coherent_ofSource hdoc).run [.useModule "b,c"]).exists_useModule
    (show stubRegistry.get? "shout" = some (.ofNames "shout" ["a"]) from rfl)
  have hfails : (Analysis.ofNodes .default stubRegistry
      (Template.analysed outputOfA ++ [useComment "b,c", useComment "shout"])).isOk = false := by
    decide +kernel
  refine ⟨doc, _, rebuilt, later, hdoc, parse_outputOfA,
    ⟨by decide, by decide, by decide, hnew "", huse, eq_ok_of_toOption_eq_some hrebuilt, ?_,
      hrebuiltModules, ?_, hrebuiltModel⟩, isListedName_shout, hrun, hlater, ?_⟩
  · exact congrArg (· ++ [""]) hmodules
  · rw [MetadataNode.map_name_unnamed, hmodel]
    rfl
  · rintro ⟨found, hfound⟩
    rw [hfound] at hfails
    cases hfails

end Document

end DocModel
