import DocModel.Proofs.Metadata.Position
import DocModel.Proofs.Validation.Faults

/-!
What a validation reports, position by position. The walk with its depth guard, its pruned subtrees and
its stand-in for missing data yields exactly the faults of the positions of the model, in pre-order.
-/

namespace DocModel

namespace Json

/-- The value that some keys lead to, one after the other. -/
def along? (data : Json) : List String → Option Json
  | [] => some data
  | key :: rest => (data.get? key).bind fun value => value.along? rest

/-- What stands in for data that are missing has no entries, so looking further in it finds as
little as looking further in the missing data. -/
theorem along?_nestedData (data : Json) (key : String) {rest : List String} (hrest : rest ≠ []) :
    (Validation.nestedData (data.get? key)).along? rest = data.along? (key :: rest) := by
  rw [along?]
  cases rest with
  | nil => exact absurd rfl hrest
  | cons next rest =>
    cases data.get? key with
    | none => rfl
    | some value => cases value <;> rfl

end Json

namespace Validation

/-- The fault of a value that is present, if a constraint of its node is broken. -/
def constraintFault? (node : MetadataNode) (value : Json) : Option ValidationError :=
  (breach? node value).map fun breach =>
    ⟨breach.code, node.fieldName, breachMessage node.fieldName (Json.audit (some value)) breach⟩

theorem ownErrors_of_present {node : MetadataNode} {value : Option Json}
    (hpresent : Json.isPresent value = true) :
    ownErrors node value = (value.bind (constraintFault? node)).toList := by
  cases value with
  | none => rfl
  | some data =>
    rw [ownErrors, hpresent, Option.bind_some, constraintFault?]
    cases breach? node data <;> rfl

end Validation

namespace MetadataNode.Position

open Validation

variable {data : Json} {top : MetadataNode} {position : Position}

/-- The value of a position: its names looked up one in the other. -/
def value? (data : Json) (position : Position) : Option Json :=
  data.along? position.names

/-- Whether nothing was given for a position. -/
def isAbsent (data : Json) (position : Position) : Bool :=
  !Json.isPresent (position.value? data)

/-- Whether some proper ancestor is required and absent. -/
def isSkipped (data : Json) (position : Position) : Bool :=
  position.above.any fun ancestor => ancestor.node.isRequired && ancestor.isAbsent data

/-- What is to be reported for a position: nothing below a missing required node, a missing value
where one is required, and else what the constraints say about a value that is present. -/
def expectedErrors (data : Json) (position : Position) : List ValidationError :=
  if position.isSkipped data then []
  else if position.isAbsent data then
    if position.node.isRequired then [missing position.node (position.value? data)] else []
  else ((position.value? data).bind (constraintFault? position.node)).toList

theorem value?_under (data : Json) (top : MetadataNode) (position : Position) :
    (under top position).value? data = position.value? (nestedData (data.get? top.name)) :=
  (Json.along?_nestedData data top.name position.names_ne_nil).symm

theorem value?_top (data : Json) (top : MetadataNode) :
    (⟨[], top⟩ : Position).value? data = data.get? top.name := by
  simp [value?, names, Json.along?]

theorem isAbsent_under (data : Json) (top : MetadataNode) (position : Position) :
    (under top position).isAbsent data = position.isAbsent (nestedData (data.get? top.name)) := by
  rw [isAbsent, value?_under, isAbsent]

/-- A position is skipped because of the top node or because of a node between. -/
theorem isSkipped_under (data : Json) (top : MetadataNode) (position : Position) :
    (under top position).isSkipped data =
      (top.isRequired && !Json.isPresent (data.get? top.name) ||
        position.isSkipped (nestedData (data.get? top.name))) := by
  rw [isSkipped, above_under, List.any_cons, List.any_map, isAbsent, value?_top, isSkipped]
  congr 2
  funext ancestor
  exact congrArg _ (isAbsent_under data top ancestor)

theorem expectedErrors_under_missing {data : Json} {top : MetadataNode}
    (hmissing : (!Json.isPresent (data.get? top.name) && top.isRequired) = true)
    (position : Position) : (under top position).expectedErrors data = [] := by
  rw [Bool.and_comm] at hmissing
  rw [expectedErrors, isSkipped_under, hmissing, Bool.true_or, if_pos rfl]

theorem expectedErrors_under {data : Json} {top : MetadataNode}
    (hgiven : (!Json.isPresent (data.get? top.name) && top.isRequired) = false)
    (position : Position) :
    (under top position).expectedErrors data =
      position.expectedErrors (nestedData (data.get? top.name)) := by
  rw [Bool.and_comm] at hgiven
  rw [expectedErrors, isSkipped_under, hgiven, Bool.false_or, isAbsent_under, value?_under,
    expectedErrors, under]

/-- The top position has no ancestors, so that its own value decides. -/
theorem expectedErrors_top (data : Json) (top : MetadataNode) :
    (⟨[], top⟩ : Position).expectedErrors data =
      if !Json.isPresent (data.get? top.name) && top.isRequired then
        [missing top (data.get? top.name)]
      else ownErrors top (data.get? top.name) := by
  have hskipped : (⟨[], top⟩ : Position).isSkipped data = false := rfl
  rw [expectedErrors, hskipped, isAbsent, value?_top]
  by_cases hpresent : Json.isPresent (data.get? top.name) = true
  · simp [hpresent, ownErrors_of_present]
  · rw [Bool.not_eq_true] at hpresent
    simp [hpresent, ownErrors_of_absent]

end MetadataNode.Position

open MetadataNode Validation

theorem faults_eq_flatMap_of_nodes {data : Json} {nodes : List MetadataNode}
    (hnodes : ∀ node ∈ nodes,
      nodeFaults data node = (positionsFrom node).flatMap (·.expectedErrors data)) :
    faults data nodes = (positions nodes).flatMap (·.expectedErrors data) := by
  rw [faults, positions, List.flatMap_assoc, List.flatMap_def, List.flatMap_def,
    List.map_congr_left hnodes]

/-- The faults of a node and of what is below it are those expected at its positions. -/
theorem nodeFaults_eq_flatMap (data : Json) (node : MetadataNode) :
    nodeFaults data node = (positionsFrom node).flatMap (·.expectedErrors data) := by
  induction node using induction_on_children generalizing data with
  | step node ih =>
    rw [nodeFaults_eq, positionsFrom_eq, List.flatMap_cons, List.flatMap_map,
      Position.expectedErrors_top]
    by_cases hmissing : (!Json.isPresent (data.get? node.name) && node.isRequired) = true
    · simp [hmissing, Position.expectedErrors_under_missing]
    · rw [Bool.not_eq_true] at hmissing
      have hbelow := faults_eq_flatMap_of_nodes fun child hchild =>
        ih child hchild (nestedData (data.get? node.name))
      simp [hmissing, Position.expectedErrors_under hmissing, hbelow]

/-- A validation that succeeds reports, in pre-order of the model, exactly what is expected at each
position: nothing is lost, repeated or moved, and nothing is reported below a missing required
node. -/
theorem validate_eq_flatMap_positions {data : Json} {model : List MetadataNode} {maxDepth : Nat}
    {errors : List ValidationError} (hok : validate data model maxDepth = .ok errors) :
    errors = (positions model).flatMap (·.expectedErrors data) := by
  rw [eq_faults_of_validate hok]
  exact faults_eq_flatMap_of_nodes fun node _ => nodeFaults_eq_flatMap data node

/-- A required group above a required name, and a code of at least three characters. -/
def guestModel : List MetadataNode :=
  let name := { ofField none "name" "guest.name" [] with isRequired := true }
  [{ ofField none "guest" "guest" [name] with isRequired := true },
    { ofField none "code" "code" [] with minLength := some 3 }]

def guestData : Json := .obj [("code", .str "ab"), ("guest", .null)]

/-- The missing group is reported once, its name is not, and the code after it is. -/
def guestErrors : List ValidationError :=
  [⟨.required, "guest", "Field 'guest' is required (null is passed)"⟩,
    ⟨.shorterThanRange, "code", "'code' field value is shorter than the range " ++
      "('ab' is passed, the minimum is 3)"⟩]

theorem validate_eq_flatMap_positions_guestModel :
    validate guestData guestModel 2 = .ok guestErrors ∧
      guestErrors = (positions guestModel).flatMap (·.expectedErrors guestData) := by
  have hok : validate guestData guestModel 2 = .ok guestErrors :=
    eq_ok_of_toOption_eq_some (by decide +kernel)
  exact ⟨hok, validate_eq_flatMap_positions hok⟩

end DocModel
