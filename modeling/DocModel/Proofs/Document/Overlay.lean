import DocModel.Proofs.Document.Enabling
import DocModel.Proofs.Json.Entries
import DocModel.Proofs.Validation.Preorder

/-!
Validation with data put over the data of a document. Every top node of the model is checked against the
data that have its name, so that what is put over the data shows in the errors of the nodes it names and
in no others. A validation answers and leaves the document alone.
-/

namespace DocModel

namespace Validation

open MetadataNode

/-- What is to be reported for a node and for all nodes below it. -/
def subtreeErrors (data : Json) (node : MetadataNode) : List ValidationError :=
  (positionsFrom node).flatMap (·.expectedErrors data)

/-- Of the data only the value under the name of a node has a part in its errors. -/
theorem nodeFaults_congr {data other : Json} {node : MetadataNode}
    (hvalue : data.get? node.name = other.get? node.name) :
    nodeFaults data node = nodeFaults other node := by
  rw [nodeFaults_eq, hvalue, ← nodeFaults_eq]

end Validation

namespace Document

open Validation

theorem get?_overlay (base : Entries Json) {other : Entries Json}
    (hother : (other.map (·.1)).Nodup) (name : String) :
    (overlay (.obj base) (.obj other)).get? name =
      if (other.get? name).isSome then Json.get? (.obj other) name else Json.get? (.obj base) name := by
  change (Entries.overlay base other).get? name = _
  rw [Entries.get?_overlay base hother, Json.get?, Json.get?]
  cases other.get? name <;> rfl

/-- The errors of a node under an object put over another are those under one of the two. -/
theorem nodeFaults_overlay (base : Entries Json) {other : Entries Json}
    (hother : (other.map (·.1)).Nodup) (node : MetadataNode) :
    nodeFaults (overlay (.obj base) (.obj other)) node =
      if (other.get? node.name).isSome then nodeFaults (.obj other) node
      else nodeFaults (.obj base) node := by
  have hvalue := get?_overlay base hother node.name
  split at hvalue
  · next hnamed => rw [if_pos hnamed, nodeFaults_congr hvalue]
  · next hunnamed => rw [if_neg hunnamed, nodeFaults_congr hvalue]

theorem overlay_of_not_objects {base other : Json}
    (hkinds : ¬ ((∃ entries, base = .obj entries) ∧ ∃ entries, other = .obj entries)) :
    overlay base other = other := by
  unfold overlay
  split
  · exact absurd ⟨⟨_, rfl⟩, _, rfl⟩ hkinds
  · rfl

/-- What is asked of a document: a change, or a validation of data put over its own. -/
inductive Request where
  | change (change : Change)
  | validateWith (other : Json)

def Request.change? : Request → Option Change
  | .change asked => some asked
  | .validateWith _ => none

/-- The document behind a request, and the answer to a validation. -/
def serve (doc : Document) :
    Request → Document × Option (Except DocumentError (List ValidationError))
  | .change asked => (doc.step asked, none)
  | .validateWith other => (doc, some (doc.validateWith other))

/-- The document behind some requests that were served in order. -/
def served (doc : Document) (requests : List Request) : Document :=
  requests.foldl (fun doc request => (doc.serve request).1) doc

/-- Validations leave no trace: what is left of some requests are the changes among them. -/
theorem served_eq_run (doc : Document) (requests : List Request) :
    doc.served requests = doc.run (requests.filterMap Request.change?) := by
  induction requests generalizing doc with
  | nil => rfl
  | cons request rest ih =>
    cases request with
    | change asked => exact ih (doc.step asked)
    | validateWith other => exact ih doc

/-- A validation with an object put over the data, when these are an object too, reports node by node
of the top of the model what is to be reported for the object alone, if that has an entry with the
node's name, and else what is to be reported for the data alone. If one of the two is no object, the
other data are validated alone. The data stay those that were set last, however often this is asked. -/
theorem validateWith_eq_flatMap {config : DocumentConfig} {registry : Registry} {source : String}
    {doc now : Document} (hpositive : 1 ≤ config.maxDepth)
    (hdoc : ofSource config registry source = .ok doc) {requests : List Request}
    (hnow : doc.served requests = now) :
    (∀ data, now.validate data = .ok (now.analysis.model.flatMap (subtreeErrors data)) ∧
      ∀ node ∈ now.analysis.model,
        DocModel.validate data [node] config.maxDepth = .ok (subtreeErrors data node)) ∧
    (∀ base other, now.data = .obj base → (other.map (·.1)).Nodup →
      now.validateWith (.obj other) = .ok (now.analysis.model.flatMap fun node =>
        if (Entries.get? other node.name).isSome then subtreeErrors (.obj other) node
        else subtreeErrors now.data node)) ∧
    (∀ other, ¬ ((∃ base, now.data = .obj base) ∧ ∃ entries, other = .obj entries) →
      now.validateWith other = now.validate other) ∧
    now.data = lastData (doc.carriedOut (requests.filterMap Request.change?)) := by
  rw [served_eq_run] at hnow
  subst hnow
  have hcoherent := (coherent_ofSource hdoc).run (requests.filterMap Request.change?)
  have hfaults (data : Json) : subtreeErrors data = nodeFaults data :=
    funext fun node => (nodeFaults_eq_flatMap data node).symm
  simp only [hfaults]
  refine ⟨fun data => ⟨hcoherent.validate_eq_flatMap hpositive data,
    fun node hnode => hcoherent.validate_node hpositive data hnode⟩, ?_, ?_, ?_⟩
  · intro base other hbase hother
    rw [validateWith, hcoherent.validate_eq_flatMap hpositive, hbase]
    exact congrArg (fun errorsOf => Except.ok (List.flatMap errorsOf _))
      (funext (nodeFaults_overlay base hother))
  · intro other hkinds
    rw [validateWith, overlay_of_not_objects hkinds]
  · obtain ⟨loaded, enabled, _, _, hrun⟩ :=
      replay hdoc (foldlM_attempt_carriedOut doc (requests.filterMap Request.change?))
    rw [hrun]
    rfl

/-- A name of at least three characters, and a room that must be given. -/
def visitSource : String :=
  "\x7b# @field \"name\" minLength=\"3\" #\x7d\x7b# @group \"room\" required #\x7d" ++
    "\x7b\x7b name \x7d\x7d\x7b\x7b room.no \x7d\x7d"

def visitNodes : List Template.Node :=
  [.comment .none " @field \"name\" minLength=\"3\" ", .comment .none " @group \"room\" required ",
    .output .none (.mk (.name "name") [] false), .output .none (.mk (.name "room.no") [] false)]

theorem parse_visitSource : Template.parse visitSource = .ok visitNodes := by cbv

theorem directives_visitNodes : Template.directives (Template.analysed visitNodes) true =
    .ok [⟨"field", [.positional "name", .named "minLength" "3"]⟩,
      ⟨"group", [.positional "room", .flag "required"]⟩] := by
  have hcomments : Template.comments (Template.analysed visitNodes) =
      [" @field \"name\" minLength=\"3\" ", " @group \"room\" required "] := by decide +kernel
  have hname : Directive.parse " @field \"name\" minLength=\"3\" " true =
      .ok (some ⟨"field", [.positional "name", .named "minLength" "3"]⟩) := by cbv
  have hroom : Directive.parse " @group \"room\" required " true =
      .ok (some ⟨"group", [.positional "room", .flag "required"]⟩) := by cbv
  rw [Template.directives, hcomments, Directive.parseAll, List.mapM_cons, hname, List.mapM_cons, hroom]
  rfl

/-- The name is too short, and no room is given. -/
def visitData : Entries Json := [("name", .str "Bo"), ("room", .null)]

/-- A room for the visit. -/
def visitRoom : Entries Json := [("room", .obj [("no", .int 1)])]

def visitErrors : List ValidationError :=
  [⟨.shorterThanRange, "name", "'name' field value is shorter than the range " ++
    "('Bo' is passed, the minimum is 3)"⟩]

theorem exists_ofSource_visit :
    ∃ doc, ofSource .default .builtin visitSource = .ok doc ∧
      (doc.setData (.obj visitData)).validateWith (.obj visitRoom) = .ok visitErrors := by
  have hsummary : (ofSource .default .builtin visitSource).toOption.map (fun doc =>
      ((doc.setData (.obj visitData)).validateWith (.obj visitRoom)).toOption) =
        some (some visitErrors) := by
    simp only [ofSource, load, parse_visitSource, Except.mapError, bind, Except.bind,
      Analysis.ofNodes, DocumentConfig.default, directives_visitNodes]
    decide +kernel
  obtain ⟨doc, hdoc, hvalidate⟩ := Option.map_eq_some_iff.mp hsummary
  exact ⟨doc, eq_ok_of_toOption_eq_some hdoc, eq_ok_of_toOption_eq_some hvalidate⟩

/-- The room that is put over the data stands for the missing one, and the name is reported as before. -/
theorem validateWith_eq_flatMap_visit :
    ∃ doc now, 1 ≤ DocumentConfig.default.maxDepth ∧
      ofSource .default .builtin visitSource = .ok doc ∧
      doc.served [.change (.setData (.obj visitData)), .validateWith (.obj visitRoom)] = now ∧
      now.data = .obj visitData ∧ (visitRoom.map (·.1)).Nodup ∧
      now.validateWith (.obj visitRoom) = .ok visitErrors ∧
      visitErrors = now.analysis.model.flatMap fun node =>
        if (Entries.get? visitRoom node.name).isSome then subtreeErrors (.obj visitRoom) node
        else subtreeErrors (.obj visitData) node := by
  obtain ⟨doc, hdoc, hvalidate⟩ := exists_ofSource_visit
  have hpositive : 1 ≤ DocumentConfig.default.maxDepth := by decide
  have hkeys : (visitRoom.map (·.1)).Nodup := by decide
  have hnow : doc.served [.change (.setData (.obj visitData)), .validateWith (.obj visitRoom)] =
      doc.setData (.obj visitData) := rfl
  obtain ⟨_, hobjects, _⟩ := validateWith_eq_flatMap hpositive hdoc hnow
  have hreported := hobjects visitData visitRoom rfl hkeys
  exact ⟨doc, _, hpositive, hdoc, hnow, rfl, hkeys, hvalidate,
    Except.ok.inj (hvalidate.symm.trans hreported)⟩

end Document

end DocModel
