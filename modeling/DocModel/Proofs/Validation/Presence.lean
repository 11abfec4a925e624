import DocModel.Proofs.Document.Run
import DocModel.Proofs.Metadata.Coverage
import DocModel.Proofs.Template.Occurrences
import DocModel.Proofs.Template.Reference
import DocModel.Proofs.Validation.Preorder

/-!
What a template can read is not reported as missing. The validation looks names up in objects alone and
does not enter arrays, so that this holds up to the first number or subscript of a reference, and for the
whole path when nothing but numbers comes behind its names.
-/

namespace DocModel

namespace Template

/-- The value that a reference has in some data. Only an object gives values to references. -/
def read? (data : Json) (reference : String) : Option Json :=
  match data with
  | .obj entries => (Frames.ofData entries).valueOf? reference
  | _ => none

theorem IsPlainName.indexOf?_eq_none {name : String} (hname : IsPlainName name) :
    indexOf? name = none := by
  have hplus : '+' ∉ name.toList := by
    intro hmem
    have hchar := hname.chars '+' hmem
    cases hchar
  have hdigits := hname.not_number
  have hread : Numeral.readNat? Numeral.maxUnsigned name.toList = none := by
    unfold Numeral.readNat?
    split
    · next rest hrest =>
      rw [hrest] at hplus
      exact absurd List.mem_cons_self hplus
    · simp [hdigits]
  unfold indexOf?
  split
  · rfl
  · rfl
  · exact hread

/-- A name that is no number is looked up in objects only, as the validation does. -/
theorem IsPlainName.get?_of_child? {name : String} (hname : IsPlainName name) {data value : Json}
    (hvalue : child? data name = some value) : data.get? name = some value := by
  cases data with
  | obj entries => exact hvalue
  | arr items =>
    rw [child?, hname.indexOf?_eq_none] at hvalue
    cases hvalue
  | null | bool | int | real | str => cases hvalue

theorem isPresent_of_child? {data value : Json} {key : String}
    (hvalue : child? data key = some value) : Json.isPresent (some data) = true := by
  cases data with
  | obj entries => rfl
  | arr items => rfl
  | null | bool | int | real | str => cases hvalue

/-- On the way to a value that is present there are no absent values. -/
theorem isPresent_of_foldlM {keys : List String} {data value : Json}
    (hvalue : keys.foldlM child? data = some value) (hpresent : Json.isPresent (some value) = true) :
    Json.isPresent (some data) = true := by
  cases keys with
  | nil =>
    cases hvalue
    exact hpresent
  | cons key keys =>
    rw [List.foldlM_cons] at hvalue
    obtain ⟨next, hnext, _⟩ := Option.bind_eq_some_iff.mp hvalue
    exact isPresent_of_child? hnext

theorem isPresent_along? {names more : List String} (hnames : ∀ name ∈ names, IsPlainName name)
    {data value : Json} (hvalue : (names ++ more).foldlM child? data = some value)
    (hpresent : Json.isPresent (some value) = true) : Json.isPresent (data.along? names) = true := by
  induction names generalizing data with
  | nil => exact isPresent_of_foldlM hvalue hpresent
  | cons name names ih =>
    obtain ⟨hname, hnames⟩ := List.forall_mem_cons.mp hnames
    rw [List.cons_append, List.foldlM_cons] at hvalue
    obtain ⟨next, hnext, hvalue⟩ := Option.bind_eq_some_iff.mp hvalue
    rw [Json.along?, hname.get?_of_child? hnext]
    exact ih hnames hvalue

end Template

open MetadataNode Template Validation

theorem code_ne_required_of_rangeBreach? {node : MetadataNode} {value : Json} {breach : Breach}
    (hbreach : rangeBreach? node value = some breach) : breach.code ≠ .required := by
  rw [rangeBreach?] at hbreach
  rcases eq_some_of_orElse_eq_some hbreach with hbelow | habove
  · obtain ⟨bound, _, rfl⟩ := Option.map_eq_some_iff.mp hbelow
    nofun
  · obtain ⟨bound, _, rfl⟩ := Option.map_eq_some_iff.mp habove
    nofun

theorem code_ne_required_of_lengthBreach? {node : MetadataNode} {value : Json} {breach : Breach}
    (hbreach : lengthBreach? node value = some breach) : breach.code ≠ .required := by
  rw [lengthBreach?] at hbreach
  rcases eq_some_of_orElse_eq_some hbreach with hshorter | hlonger
  · obtain ⟨limit, _, rfl⟩ := Option.map_eq_some_iff.mp hshorter
    nofun
  · obtain ⟨limit, _, rfl⟩ := Option.map_eq_some_iff.mp hlonger
    nofun

theorem code_ne_required_of_breach? {node : MetadataNode} {value : Json} {breach : Breach}
    (hbreach : breach? node value = some breach) : breach.code ≠ .required := by
  rw [breach?] at hbreach
  rcases eq_some_of_orElse_eq_some hbreach with hrange | hlength
  · split at hrange
    · exact code_ne_required_of_rangeBreach? hrange
    · cases hrange
  · split at hlength
    · cases hlength
    · exact code_ne_required_of_lengthBreach? hlength

/-- What is reported as missing is absent. -/
theorem isAbsent_of_mem_expectedErrors {data : Json} {position : Position} {error : ValidationError}
    (hmem : error ∈ position.expectedErrors data) (hcode : error.code = .required) :
    position.isAbsent data = true ∧ error.fieldName = position.node.fieldName := by
  rw [Position.expectedErrors] at hmem
  split at hmem
  · cases hmem
  · split at hmem
    · next habsent =>
      split at hmem
      · rw [List.mem_singleton.mp hmem]
        exact ⟨habsent, rfl⟩
      · cases hmem
    · obtain ⟨value, _, hfault⟩ := Option.bind_eq_some_iff.mp (Option.mem_toList.mp hmem)
      obtain ⟨breach, hbreach, rfl⟩ := Option.map_eq_some_iff.mp hfault
      exact absurd hcode (code_ne_required_of_breach? hbreach)

section Model

variable {paths : List String} {fields : List Field} {helpers : List String} {maxDepth : Nat}
  {trie : PathTrie} {nodes : List MetadataNode}

theorem segments_fieldName (htrie : PathTrie.ofPaths paths maxDepth = .ok trie)
    (hmodel : model trie fields helpers maxDepth = .ok nodes) {position : Position}
    (hposition : position ∈ positions nodes) :
    Path.segments position.node.fieldName = position.names := by
  rw [eq_decoratedForest_of_model hmodel] at hposition
  have hchain := (names_positions_perm fields _).mem_iff.mp (List.mem_map_of_mem hposition)
  have hkept := (PathNode.mem_chains_filter fun name => !helpers.contains name).mp hchain
  rw [fieldName_of_mem_positions hposition]
  exact Path.segments_ofSegments position.names_ne_nil
    (PathTrie.isSegment_of_mem_chains htrie _ hkept.1)

theorem not_mem_dotPrefixes_of_required (htrie : PathTrie.ofPaths paths maxDepth = .ok trie)
    (hmodel : model trie fields helpers maxDepth = .ok nodes) {names more : List String}
    (hne : names ≠ []) (hnames : ∀ name ∈ names, IsPlainName name) {data value : Json}
    (hvalue : (names ++ more).foldlM child? data = some value)
    (hpresent : Json.isPresent (some value) = true) {errors : List ValidationError}
    (hvalidate : validate data nodes maxDepth = .ok errors) {error : ValidationError}
    (hmem : error ∈ errors) (hcode : error.code = .required) :
    error.fieldName ∉ Path.dotPrefixes (Path.ofSegments names) := by
  have herrors : errors = (positions nodes).flatMap (·.expectedErrors data) := by
    rw [eq_faults_of_validate hvalidate]
    exact faults_eq_flatMap_of_nodes fun node _ => nodeFaults_eq_flatMap data node
  rw [herrors] at hmem
  obtain ⟨position, hposition, hexpected⟩ := List.mem_flatMap.mp hmem
  obtain ⟨habsent, hfieldName⟩ := isAbsent_of_mem_expectedErrors hexpected hcode
  have hsegments : Path.segments (Path.ofSegments names) = names :=
    Path.segments_ofSegments hne fun name hname => (hnames name hname).not_mem (by decide)
  intro hprefix
  rw [Path.mem_dotPrefixes, hfieldName, segments_fieldName htrie hmodel hposition, hsegments]
    at hprefix
  obtain ⟨below, rfl⟩ := hprefix
  -- The reported names are the first keys on the way to the value, where nothing is absent.
  rw [List.append_assoc] at hvalue
  have hgiven := isPresent_along? (fun name hname => hnames name (List.mem_append_left below hname))
    hvalue hpresent
  rw [Position.isAbsent, Position.value?, hgiven] at habsent
  cases habsent

end Model

namespace Template

/-- Nothing but numbers stands behind the names that a reference begins with. -/
def EndsInNumbers (reference : String) : Prop :=
  ∃ tail, reference.toList = (Path.plain reference).toList ++ tail ∧ IsNumbers tail

end Template

/-- A value that a reference reads and that is present is not reported as missing, nor is anything on the
way to it, up to the first number or subscript of the reference; and if nothing but numbers ends the
reference, then nothing on the whole of its clean path is. -/
theorem not_required_of_read? {config : DocumentConfig} {registry : Registry} {source : String}
    {doc : Document} (hdoc : Document.ofSource config registry source = .ok doc)
    (changes : List Document.Change) {reference : String} (hreference : IsReference reference)
    {data value : Json} (hread : read? data reference = some value)
    (hpresent : Json.isPresent (some value) = true) {errors : List ValidationError}
    (hvalidate : (doc.run changes).validate data = .ok errors) :
    ∀ error ∈ errors, error.code = .required →
      error.fieldName ∉ Path.dotPrefixes (Path.plain reference) ∧
        (EndsInNumbers reference → error.fieldName ∉ Path.dotPrefixes (Path.clean reference)) := by
  have hbuilt := (Document.builtUnder_ofSource hdoc).run changes
  have hne := hreference.plainNames_ne_nil
  have hnames := hreference.isPlainName
  rw [Document.validate, mapError_eq_ok_iff, hbuilt.config_eq] at hvalidate
  obtain ⟨more, hvalue⟩ :
      ∃ more, (Path.plainNames reference ++ more).foldlM child? data = some value := by
    cases data with
    | obj entries =>
      obtain ⟨rest, hrest, hhead⟩ := hreference.exists_rest
      exact exists_keys_of_valueOf? hne hnames hrest hhead hread
    | null | bool | int | real | str | arr => cases hread
  intro error hmem hcode
  have hplain := not_mem_dotPrefixes_of_required hbuilt.trie_eq hbuilt.model_eq hne hnames hvalue
    hpresent hvalidate hmem hcode
  refine ⟨hplain, fun ⟨tail, htail, hnumbers⟩ => ?_⟩
  rw [clean_eq_ofSegments hne hnames hnumbers htail]
  exact hplain

/-- A required name in the rows of a table, and the data of a row. -/
def rowsSource : String :=
  "\x7b# @field \"rows.x\" required #\x7d\x7b\x7b rows[0].x \x7d\x7d"

def rowsData : Json := .obj [("rows", .arr [.obj [("x", .int 1)]])]

def rowsNodes : List Template.Node :=
  [.comment .none " @field \"rows.x\" required ", .output .none (.mk (.name "rows[0].x") [] false)]

theorem parse_rowsSource : Template.parse rowsSource = .ok rowsNodes := by cbv

/-- The rows are an array, which the validation does not enter. -/
def rowsErrors : List ValidationError :=
  [⟨.required, "rows.x", "Field 'rows.x' is required (undefined is passed)"⟩]

theorem directives_rowsNodes : Template.directives (Template.analysed rowsNodes) true =
    .ok [⟨"field", [.positional "rows.x", .flag "required"]⟩] := by
  have hcomments : Template.comments (Template.analysed rowsNodes) =
      [" @field \"rows.x\" required "] := by decide +kernel
  have hparse : Directive.parse " @field \"rows.x\" required " true =
      .ok (some ⟨"field", [.positional "rows.x", .flag "required"]⟩) := by cbv
  rw [Template.directives, hcomments, Directive.parseAll, List.mapM_cons, hparse]
  rfl

theorem exists_ofSource_rows :
    ∃ doc, Document.ofSource .default .builtin rowsSource = .ok doc ∧
      doc.validate rowsData = .ok rowsErrors := by
  have hsummary : (Document.ofSource .default .builtin rowsSource).toOption.map (fun doc =>
      (doc.validate rowsData).toOption) = some (some rowsErrors) := by
    simp only [Document.ofSource, Document.load, parse_rowsSource, Except.mapError, bind, Except.bind,
      Analysis.ofNodes, DocumentConfig.default, directives_rowsNodes]
    decide +kernel
  obtain ⟨doc, hdoc, hvalidate⟩ := Option.map_eq_some_iff.mp hsummary
  exact ⟨doc, eq_ok_of_toOption_eq_some hdoc, eq_ok_of_toOption_eq_some hvalidate⟩

theorem isReference_rows : IsReference "rows[0].x" ∧ IsReference "rows[0]" :=
  ⟨⟨2, "rows[0].x".toList, [], by decide +kernel⟩, ⟨2, "rows[0]".toList, [], by decide +kernel⟩⟩

theorem read?_rows : read? rowsData "rows[0].x" = some (.int 1) ∧
    read? rowsData "rows[0]" = some (.obj [("x", .int 1)]) :=
  ⟨by cbv, by cbv⟩

theorem endsInNumbers_rows : EndsInNumbers "rows[0]" := by
  have hdigits : ∀ c ∈ ['0'], c.isDigit = true := List.forall_mem_singleton.mpr rfl
  have hnumbers : IsNumbers ('[' :: (['0'] ++ [']'])) := .subscript nofun hdigits .nil
  exact ⟨['[', '0', ']'], by decide +kernel, hnumbers⟩

/-- The row can be read, and nothing is said about the rows. -/
theorem not_required_of_read?_rows :
    ∃ doc, Document.ofSource .default .builtin rowsSource = .ok doc ∧
      IsReference "rows[0]" ∧ EndsInNumbers "rows[0]" ∧
      read? rowsData "rows[0]" = some (.obj [("x", .int 1)]) ∧
      Json.isPresent (some (.obj [("x", .int 1)])) = true ∧
      (doc.run []).validate rowsData = .ok rowsErrors ∧
      ∀ error ∈ rowsErrors, error.code = .required →
        error.fieldName ∉ Path.dotPrefixes (Path.clean "rows[0]") := by
  obtain ⟨doc, hdoc, hvalidate⟩ := exists_ofSource_rows
  have hreported := not_required_of_read? hdoc [] isReference_rows.2 read?_rows.2 rfl hvalidate
  exact ⟨doc, hdoc, isReference_rows.2, endsInNumbers_rows, read?_rows.2, rfl, hvalidate,
    fun error hmem hcode => (hreported error hmem hcode).2 endsInNumbers_rows⟩

/-- The name behind the number is reported as missing, though its value can be read. -/
theorem required_of_read?_rows :
    ∃ doc, Document.ofSource .default .builtin rowsSource = .ok doc ∧
      "rows[0].x" ∈ freeNames [] (occurrences (analysed rowsNodes)) ∧
      Template.parse rowsSource = .ok rowsNodes ∧ Path.isReserved "rows[0].x" = false ∧
      read? rowsData "rows[0].x" = some (.int 1) ∧ Json.isPresent (some (.int 1)) = true ∧
      doc.validate rowsData = .ok rowsErrors ∧
      ∃ error ∈ rowsErrors, error.code = .required ∧ error.fieldName = Path.clean "rows[0].x" := by
  obtain ⟨doc, hdoc, hvalidate⟩ := exists_ofSource_rows
  have hclean : Path.clean "rows[0].x" = "rows.x" := by decide +kernel
  refine ⟨doc, hdoc, by decide +kernel, parse_rowsSource, by decide, read?_rows.1, rfl, hvalidate,
    _, List.mem_singleton_self _, rfl, hclean.symm⟩

end DocModel
