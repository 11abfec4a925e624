import DocModel.Proofs.Metadata.Decoration

/-!
How decoration decides which nodes are required: a node is when the field that counts for it says so,
or when it has children and all of them are.
-/

namespace DocModel.MetadataNode

/-- What the last field of a node's path says about it; without a field it is not required. -/
def declaredRequired (fields : List Field) (node : MetadataNode) : Bool :=
  (Field.last? fields node.fieldName).any (·.isRequired)

/-- A node whose flag, and the flags of all nodes below it, are inferred from the fields. -/
inductive Inferred (fields : List Field) : MetadataNode → Prop where
  | node {node : MetadataNode}
      (hrequired : node.isRequired = (declaredRequired fields node ||
        (!node.children.isEmpty && node.children.all (·.isRequired))))
      (hchildren : ∀ child ∈ node.children, Inferred fields child) : Inferred fields node

theorem inferred_decorated (fields : List Field) (fieldName : String) (node : PathNode) :
    Inferred fields (decorated fields fieldName node) := by
  induction node using PathNode.induction_on_children generalizing fieldName with
  | step node ih =>
    refine .node ?_ fun below hbelow => ?_
    · rw [decorated]
      rfl
    · obtain ⟨child, hchild, rfl⟩ := mem_children_decorated.mp hbelow
      exact ih child hchild _

theorem inferred_of_model {trie : PathTrie} {fields : List Field} {helpers : List String}
    {maxDepth : Nat} {nodes : List MetadataNode}
    (hbuilt : model trie fields helpers maxDepth = .ok nodes) :
    ∀ node ∈ nodes, Inferred fields node := by
  rw [eq_decoratedForest_of_model hbuilt]
  intro node hnode
  obtain ⟨branch, _, rfl⟩ := mem_decoratedForest.mp hnode
  exact inferred_decorated fields branch.name branch

/-- A required node that no field requires is required because of its children. -/
theorem Inferred.children_required {fields : List Field} {node : MetadataNode}
    (hinferred : Inferred fields node) (hrequired : node.isRequired = true)
    (hundeclared : declaredRequired fields node = false) :
    node.children ≠ [] ∧ ∀ child ∈ node.children, child.isRequired = true := by
  cases hinferred with
  | node hflag _ =>
    rw [hrequired, hundeclared] at hflag
    simpa using hflag.symm

theorem Inferred.declaredRequired_eq_false {fields : List Field} {node : MetadataNode}
    (hinferred : Inferred fields node) (hoptional : node.isRequired = false) :
    declaredRequired fields node = false := by
  cases hinferred with
  | node hflag _ =>
    rw [hoptional] at hflag
    exact (Bool.or_eq_false_iff.mp hflag.symm).1

/-- The node with every flag, its own and those below it, set to what the fields declare. -/
def withDeclaredFlags (fields : List Field) (node : MetadataNode) : MetadataNode :=
  { node with
    isRequired := declaredRequired fields node
    children := node.children.map fun child => withDeclaredFlags fields child }
termination_by sizeOf node
decreasing_by exact sizeOf_lt_of_mem_children ‹_›

theorem withDeclaredFlags_eq (fields : List Field) (node : MetadataNode) :
    withDeclaredFlags fields node =
      { node with
        isRequired := declaredRequired fields node
        children := node.children.map (withDeclaredFlags fields) } := by
  rw [withDeclaredFlags]

@[simp] theorem name_withDeclaredFlags (fields : List Field) (node : MetadataNode) :
    (withDeclaredFlags fields node).name = node.name := by
  rw [withDeclaredFlags_eq]

@[simp] theorem isRequired_withDeclaredFlags (fields : List Field) (node : MetadataNode) :
    (withDeclaredFlags fields node).isRequired = declaredRequired fields node := by
  rw [withDeclaredFlags_eq]

@[simp] theorem children_withDeclaredFlags (fields : List Field) (node : MetadataNode) :
    (withDeclaredFlags fields node).children = node.children.map (withDeclaredFlags fields) := by
  rw [withDeclaredFlags_eq]

theorem height_withDeclaredFlags_le {fields : List Field} {node : MetadataNode} {bound : Nat}
    (hnode : node.height ≤ bound) : (withDeclaredFlags fields node).height ≤ bound := by
  induction bound generalizing node with
  | zero =>
    have hpos := node.height_pos
    omega
  | succ bound ih =>
    refine height_le_succ_iff.mpr fun below hbelow => ?_
    rw [children_withDeclaredFlags] at hbelow
    obtain ⟨child, hchild, rfl⟩ := List.mem_map.mp hbelow
    exact ih (height_le_succ_iff.mp hnode child hchild)

end DocModel.MetadataNode
