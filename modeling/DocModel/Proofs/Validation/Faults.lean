import DocModel.Proofs.Metadata.Decoration
import DocModel.Validation

/-!
The faults of data without the depth guard. Wherever a validation succeeds it yields them, and it
succeeds on every model that is no higher than the depth bound, whatever the data.
-/

namespace DocModel

namespace Validation

/-- The faults of a node and of everything below it, for the data its name is looked up in. -/
def nodeFaults (data : Json) (node : MetadataNode) : List ValidationError :=
  let value := data.get? node.name
  if !Json.isPresent value && node.isRequired then [missing node value]
  else ownErrors node value ++ node.children.flatMap fun child => nodeFaults (nestedData value) child
termination_by sizeOf node
decreasing_by exact MetadataNode.sizeOf_lt_of_mem_children ‹_›

/-- The faults of some siblings. -/
def faults (data : Json) (nodes : List MetadataNode) : List ValidationError :=
  nodes.flatMap (nodeFaults data)

theorem nodeFaults_eq (data : Json) (node : MetadataNode) :
    nodeFaults data node =
      if !Json.isPresent (data.get? node.name) && node.isRequired then
        [missing node (data.get? node.name)]
      else ownErrors node (data.get? node.name) ++
        faults (nestedData (data.get? node.name)) node.children := by
  rw [nodeFaults]
  rfl

theorem nodeFaults_of_missing {data : Json} {node : MetadataNode}
    (habsent : Json.isPresent (data.get? node.name) = false) (hrequired : node.isRequired = true) :
    nodeFaults data node = [missing node (data.get? node.name)] := by
  rw [nodeFaults_eq, habsent, hrequired]
  rfl

theorem nodeFaults_of_present {data : Json} {node : MetadataNode}
    (hpresent : Json.isPresent (data.get? node.name) = true) :
    nodeFaults data node = ownErrors node (data.get? node.name) ++
      faults (nestedData (data.get? node.name)) node.children := by
  rw [nodeFaults_eq, hpresent]
  rfl

theorem ownErrors_of_absent {node : MetadataNode} {value : Option Json}
    (habsent : Json.isPresent value = false) : ownErrors node value = [] := by
  cases value with
  | none => rfl
  | some data => simp [ownErrors, habsent]

/-- A node without a value that need not have one has no fault of its own. -/
theorem nodeFaults_of_optional {data : Json} {node : MetadataNode}
    (habsent : Json.isPresent (data.get? node.name) = false)
    (hoptional : node.isRequired = false) :
    nodeFaults data node = faults (nestedData (data.get? node.name)) node.children := by
  rw [nodeFaults_eq, ownErrors_of_absent habsent, hoptional, Bool.and_false]
  rfl

/-- The step of a guarded level: the faults of a node, with the depth that is left below it. -/
def guardedFaults (maxDepth depth : Nat) (data : Json) (node : MetadataNode) :
    Except ModelError (List ValidationError) := do
  let value := data.get? node.name
  if !Json.isPresent value && node.isRequired then return [missing node value]
  else if node.children.isEmpty then return ownErrors node value
  else
    let below ← errorsAt maxDepth depth (nestedData value) node.children
    return ownErrors node value ++ below

theorem errorsAt_succ (maxDepth depth : Nat) (data : Json) (nodes : List MetadataNode) :
    errorsAt maxDepth (depth + 1) data nodes =
      (nodes.mapM (guardedFaults maxDepth depth data)).map List.flatten := by
  rw [errorsAt]
  change (nodes.mapM (guardedFaults maxDepth depth data) >>= _) = _
  cases nodes.mapM (guardedFaults maxDepth depth data) <;> rfl

/-- A step does what the unguarded faults say if the level below it does, where it is entered. -/
theorem guardedFaults_eq_ok {maxDepth depth : Nat} {data : Json} {node : MetadataNode}
    (hbelow : node.children ≠ [] →
      errorsAt maxDepth depth (nestedData (data.get? node.name)) node.children =
        .ok (faults (nestedData (data.get? node.name)) node.children)) :
    guardedFaults maxDepth depth data node = .ok (nodeFaults data node) := by
  rw [nodeFaults_eq, guardedFaults]
  by_cases hmissing : (!Json.isPresent (data.get? node.name) && node.isRequired) = true
  · simp only [if_pos hmissing]
    rfl
  · simp only [if_neg hmissing]
    cases hchildren : node.children with
    | nil => simp [faults, pure, Except.pure]
    | cons first rest =>
      rw [← hchildren, hbelow (by simp [hchildren])]
      simp [hchildren, bind, Except.bind, pure, Except.pure]

/-- Within the depth bound a level yields the faults of its nodes, whatever the data. -/
theorem errorsAt_eq_ok {maxDepth depth : Nat} {data : Json} {nodes : List MetadataNode}
    (hdepth : 0 < depth) (hheight : ∀ node ∈ nodes, node.height ≤ depth) :
    errorsAt maxDepth depth data nodes = .ok (faults data nodes) := by
  induction depth generalizing data nodes with
  | zero => omega
  | succ depth ih =>
    have hlevel : nodes.mapM (guardedFaults maxDepth depth data) =
        .ok (nodes.map (nodeFaults data)) := by
      refine mapM_eq_ok_map fun node hnode => guardedFaults_eq_ok fun hne => ?_
      have hchildren := MetadataNode.height_le_succ_iff.mp (hheight node hnode)
      obtain ⟨child, hchild⟩ := List.exists_mem_of_ne_nil node.children hne
      have hpos := child.height_pos
      exact ih (Nat.lt_of_lt_of_le hpos (hchildren child hchild)) hchildren
    rw [errorsAt_succ, hlevel, faults, List.flatMap_def]
    rfl

theorem eq_nodeFaults_of_guardedFaults {maxDepth depth : Nat} {data : Json} {node : MetadataNode}
    {own : List ValidationError}
    (hbelow : ∀ errors,
      errorsAt maxDepth depth (nestedData (data.get? node.name)) node.children = .ok errors →
        errors = faults (nestedData (data.get? node.name)) node.children)
    (hok : guardedFaults maxDepth depth data node = .ok own) : own = nodeFaults data node := by
  rw [guardedFaults] at hok
  rw [nodeFaults_eq]
  by_cases hmissing : (!Json.isPresent (data.get? node.name) && node.isRequired) = true
  · simp only [if_pos hmissing] at hok ⊢
    cases hok
    rfl
  · simp only [if_neg hmissing] at hok ⊢
    by_cases hleaf : node.children.isEmpty = true
    · simp only [if_pos hleaf] at hok
      cases hok
      rw [List.isEmpty_iff.mp hleaf]
      simp [faults]
    · simp only [if_neg hleaf] at hok
      cases hlevel : errorsAt maxDepth depth (nestedData (data.get? node.name)) node.children with
      | error e => simp [hlevel, bind, Except.bind] at hok
      | ok errors =>
        rw [hlevel] at hok
        cases hok
        rw [hbelow errors hlevel]

/-- A level that succeeds has no other result than the faults of its nodes. -/
theorem eq_faults_of_errorsAt {maxDepth depth : Nat} {data : Json} {nodes : List MetadataNode}
    {errors : List ValidationError} (hok : errorsAt maxDepth depth data nodes = .ok errors) :
    errors = faults data nodes := by
  induction depth generalizing data nodes errors with
  | zero => cases hok
  | succ depth ih =>
    rw [errorsAt_succ] at hok
    cases hlevel : nodes.mapM (guardedFaults maxDepth depth data) with
    | error e => simp [hlevel, Except.map] at hok
    | ok perNode =>
      have hperNode : perNode = nodes.map (nodeFaults data) :=
        eq_map_of_mapM_eq_ok
          (fun _ _ _ hown => eq_nodeFaults_of_guardedFaults (fun _ => ih) hown) hlevel
      rw [hlevel] at hok
      cases hok
      rw [hperNode, faults, List.flatMap_def]

end Validation

open Validation

theorem eq_faults_of_validate {data : Json} {model : List MetadataNode} {maxDepth : Nat}
    {errors : List ValidationError} (hok : validate data model maxDepth = .ok errors) :
    errors = faults data model :=
  eq_faults_of_errorsAt hok

/-- A model that keeps the depth bound can be validated against any data. -/
theorem validate_eq_ok {data : Json} {model : List MetadataNode} {maxDepth : Nat}
    (hpositive : 0 < maxDepth) (hheight : ∀ node ∈ model, node.height ≤ maxDepth) :
    validate data model maxDepth = .ok (faults data model) :=
  errorsAt_eq_ok hpositive hheight

end DocModel
