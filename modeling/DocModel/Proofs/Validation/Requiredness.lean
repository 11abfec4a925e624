import DocModel.Proofs.Metadata.Inference
import DocModel.Proofs.Validation.Faults

/-!
Inferred flags and declared flags accept the same data. Only what is reported for data that are refused
differs: an inferred flag names the group that is missing, a declared one a node below it.
-/

namespace DocModel

namespace Validation

open MetadataNode

theorem faults_eq_nil_iff {data : Json} {nodes : List MetadataNode} :
    faults data nodes = [] ↔ ∀ node ∈ nodes, nodeFaults data node = [] :=
  List.flatMap_eq_nil_iff

/-- Below a value that was not given there is nothing. -/
theorem get?_nestedData_of_absent {value : Option Json} (habsent : Json.isPresent value = false)
    (key : String) : (nestedData value).get? key = none := by
  cases value with
  | none => rfl
  | some data =>
    cases data with
    | null => rfl
    | str text => rfl
    | bool | int | real | arr | obj => cases habsent

theorem nodeFaults_ne_nil_of_missing {data : Json} {node : MetadataNode}
    (habsent : Json.isPresent (data.get? node.name) = false) (hrequired : node.isRequired = true) :
    nodeFaults data node ≠ [] := by
  rw [nodeFaults_of_missing habsent hrequired]
  exact List.cons_ne_nil _ _

theorem faults_withDeclaredFlags_eq_nil_iff {fields : List Field} {data : Json}
    {nodes : List MetadataNode}
    (hnodes : ∀ node ∈ nodes,
      nodeFaults data node = [] ↔ nodeFaults data (withDeclaredFlags fields node) = []) :
    faults data nodes = [] ↔ faults data (nodes.map (withDeclaredFlags fields)) = [] := by
  simp only [faults_eq_nil_iff, List.forall_mem_map]
  exact forall₂_congr hnodes

/-- A missing group whose children are all required is refused under declared flags as well: looking
further in what is missing finds no value for any child. -/
theorem faults_ne_nil_of_children_required {value : Option Json} {nodes : List MetadataNode}
    (habsent : Json.isPresent value = false) (hne : nodes ≠ [])
    (hrequired : ∀ node ∈ nodes, node.isRequired = true) :
    faults (nestedData value) nodes ≠ [] := by
  obtain ⟨child, hchild⟩ := List.exists_mem_of_ne_nil nodes hne
  intro hnil
  have hempty : Json.isPresent ((nestedData value).get? child.name) = false := by
    rw [get?_nestedData_of_absent habsent]
    rfl
  exact nodeFaults_ne_nil_of_missing hempty (hrequired child hchild)
    (faults_eq_nil_iff.mp hnil child hchild)

/-- The flag of a node has no part in what is wrong with its value. -/
theorem ownErrors_withDeclaredFlags (fields : List Field) (node : MetadataNode)
    (value : Option Json) : ownErrors (withDeclaredFlags fields node) value = ownErrors node value := by
  rw [withDeclaredFlags_eq]
  rfl

/-- A node has faults under inferred flags exactly when it has some under declared flags. -/
theorem nodeFaults_eq_nil_iff_declared {fields : List Field} {node : MetadataNode}
    (hinferred : Inferred fields node) (data : Json) :
    nodeFaults data node = [] ↔ nodeFaults data (withDeclaredFlags fields node) = [] := by
  induction hinferred generalizing data with
  | @node node hrequired hchildren ih =>
    have hnode : Inferred fields node := .node hrequired hchildren
    have hbelow := faults_withDeclaredFlags_eq_nil_iff fun child hchild =>
      ih child hchild (nestedData (data.get? node.name))
    rw [nodeFaults_eq data (withDeclaredFlags fields node), name_withDeclaredFlags,
      isRequired_withDeclaredFlags, children_withDeclaredFlags, ownErrors_withDeclaredFlags]
    cases hpresent : Json.isPresent (data.get? node.name) with
    | true =>
      rw [nodeFaults_of_present hpresent]
      simp [hbelow]
    | false =>
      have hown := @ownErrors_of_absent node _ hpresent
      cases hflag : node.isRequired with
      | false =>
        have hundeclared := hnode.declaredRequired_eq_false hflag
        rw [nodeFaults_of_optional hpresent hflag, hown, hundeclared]
        simpa using hbelow
      | true =>
        refine iff_of_false (nodeFaults_ne_nil_of_missing hpresent hflag) ?_
        cases hdeclared : declaredRequired fields node with
        | true => simp
        | false =>
          -- No field asks for the group, so its children make it required.
          obtain ⟨hne, hall⟩ := hnode.children_required hflag hdeclared
          have hnested := faults_ne_nil_of_children_required hpresent hne hall
          simpa [hown] using fun hnil => hnested (hbelow.mpr hnil)

end Validation

open MetadataNode Validation

/-- The flags that a model infers refuse no data that the declared flags accept, and accept none that
they refuse. -/
theorem validate_eq_nil_iff_declared {trie : PathTrie} {fields : List Field} {helpers : List String}
    {maxDepth : Nat} {nodes : List MetadataNode}
    (hbuilt : model trie fields helpers maxDepth = .ok nodes) (data : Json) :
    validate data nodes maxDepth = .ok [] ↔
      validate data (nodes.map (withDeclaredFlags fields)) maxDepth = .ok [] := by
  cases maxDepth with
  | zero => exact iff_of_false nofun nofun
  | succ depth =>
    have hheight := height_le_of_model hbuilt
    have hdeclared : ∀ node ∈ nodes.map (withDeclaredFlags fields), node.height ≤ depth + 1 := by
      intro declared hmem
      obtain ⟨node, hnode, rfl⟩ := List.mem_map.mp hmem
      exact height_withDeclaredFlags_le (hheight node hnode)
    rw [validate_eq_ok depth.succ_pos hheight, validate_eq_ok depth.succ_pos hdeclared,
      Except.ok.injEq, Except.ok.injEq]
    exact faults_withDeclaredFlags_eq_nil_iff fun node hnode =>
      nodeFaults_eq_nil_iff_declared (inferred_of_model hbuilt node hnode) data

/-- A field that must have a value. -/
def nameFields : List Field := [{ Field.bare "guest.name" with isRequired := true }]

/-- A group is inferred to be required from its only name, and data without it are refused both ways. -/
theorem validate_eq_nil_iff_declared_guest :
    ∃ trie nodes, PathTrie.ofPaths ["guest.name"] 2 = .ok trie ∧
      model trie nameFields [] 2 = .ok nodes ∧
      (validate (.obj []) nodes 2 = .ok [] ↔
        validate (.obj []) (nodes.map (withDeclaredFlags nameFields)) 2 = .ok []) := by
  obtain ⟨trie, htrie⟩ : ∃ trie, PathTrie.ofPaths ["guest.name"] 2 = .ok trie := ⟨_, rfl⟩
  obtain ⟨nodes, hbuilt⟩ := exists_model_of_ofPaths htrie nameFields []
  exact ⟨trie, nodes, htrie, hbuilt, validate_eq_nil_iff_declared hbuilt (.obj [])⟩

end DocModel
