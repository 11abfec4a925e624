import DocModel.Metadata
import DocModel.Proofs.Trie.Height

/-!
Decoration without its guard. A trie is decorated exactly when no line of its nodes is longer than the
depth bound, and what comes out does not depend on that bound.
-/

namespace DocModel

/-- A text field that gives nothing but its name. -/
def Field.bare (name : String) : Field where
  type := .string
  name := name
  label := none
  descr := none
  hint := none
  min := none
  max := none
  minLength := none
  maxLength := none
  order := none
  value := none
  isRequired := false
  options := none
  directiveName := fieldDirective
  absoluteOrder := none

namespace MetadataNode

theorem sizeOf_lt_of_mem_children {node child : MetadataNode} (hmem : child ∈ node.children) :
    sizeOf child < sizeOf node := by
  have hlt := List.sizeOf_lt_of_mem hmem
  cases node
  simp only [mk.sizeOf_spec] at hlt ⊢
  omega

/-- What passes from the children of every node to the node holds of all nodes. -/
theorem induction_on_children {motive : MetadataNode → Prop}
    (step : ∀ node, (∀ child ∈ node.children, motive child) → motive node)
    (node : MetadataNode) : motive node :=
  step node fun child _ => induction_on_children step child
termination_by sizeOf node
decreasing_by exact sizeOf_lt_of_mem_children ‹_›

/-- The count of nodes on the longest line from a node downwards. -/
def height (node : MetadataNode) : Nat :=
  greatest (node.children.map fun child => child.height) + 1
termination_by sizeOf node
decreasing_by exact sizeOf_lt_of_mem_children ‹_›

/-- A node is at most one level higher than its children. -/
theorem height_le_succ_iff {node : MetadataNode} {bound : Nat} :
    node.height ≤ bound + 1 ↔ ∀ child ∈ node.children, child.height ≤ bound := by
  rw [height, Nat.add_le_add_iff_right, greatest_le_iff]
  simp

theorem height_pos (node : MetadataNode) : 0 < node.height := by
  rw [height]
  omega

theorem sortSiblings_perm (fields : List Field) (nodes : List MetadataNode) :
    (sortSiblings fields nodes).Perm nodes :=
  stableSort_perm _ _

theorem mem_sortSiblings {fields : List Field} {nodes : List MetadataNode} {node : MetadataNode} :
    node ∈ sortSiblings fields nodes ↔ node ∈ nodes :=
  (sortSiblings_perm fields nodes).mem_iff

/-- The node of a trie node with the given path, however deep the trie is. -/
def decorated (fields : List Field) (fieldName : String) (node : PathNode) : MetadataNode :=
  ofField (Field.last? fields fieldName) node.name fieldName
    (sortSiblings fields
      (node.children.map fun child => decorated fields (fieldName ++ "." ++ child.name) child))
termination_by sizeOf node
decreasing_by exact PathNode.sizeOf_lt_of_mem_children ‹_›

theorem children_decorated (fields : List Field) (fieldName : String) (node : PathNode) :
    (decorated fields fieldName node).children = sortSiblings fields
      (node.children.map fun child => decorated fields (fieldName ++ "." ++ child.name) child) := by
  rw [decorated]
  rfl

@[simp] theorem name_decorated (fields : List Field) (fieldName : String) (node : PathNode) :
    (decorated fields fieldName node).name = node.name := by
  rw [decorated]
  rfl

@[simp] theorem fieldName_decorated (fields : List Field) (fieldName : String) (node : PathNode) :
    (decorated fields fieldName node).fieldName = fieldName := by
  rw [decorated]
  rfl

theorem mem_children_decorated {fields : List Field} {fieldName : String} {node : PathNode}
    {below : MetadataNode} :
    below ∈ (decorated fields fieldName node).children ↔
      ∃ child ∈ node.children, decorated fields (fieldName ++ "." ++ child.name) child = below := by
  rw [children_decorated, mem_sortSiblings, List.mem_map]

/-- Guarded decoration is decoration of what keeps the depth that is left. -/
theorem decorate_eq (fields : List Field) (maxDepth depth : Nat) (fieldName : String)
    (node : PathNode) :
    decorate fields maxDepth depth fieldName node =
      if node.height ≤ depth then .ok (decorated fields fieldName node)
      else .error (.potentialLoop .metadata maxDepth) := by
  induction depth generalizing fieldName node with
  | zero =>
    have hpos := node.height_pos
    rw [decorate, if_neg (by omega)]
  | succ depth ih =>
    simp only [decorate, ih]
    rw [mapM_guarded (fun child : PathNode => child.height ≤ depth), decorated]
    by_cases hfits : node.height ≤ depth + 1
    · rw [if_pos hfits, if_pos (PathNode.height_le_succ_iff.mp hfits)]
      rfl
    · rw [if_neg hfits, if_neg (fun h => hfits (PathNode.height_le_succ_iff.mpr h))]
      rfl

/-- The branches of a trie that are not named like a helper. -/
def keptBranches (trie : PathTrie) (helpers : List String) : List PathNode :=
  trie.branches.filter fun branch => !helpers.contains branch.name

/-- The siblings of some top nodes of a trie. -/
def decoratedForest (fields : List Field) (branches : List PathNode) : List MetadataNode :=
  sortSiblings fields (branches.map fun branch => decorated fields branch.name branch)

theorem mem_decoratedForest {fields : List Field} {branches : List PathNode}
    {node : MetadataNode} :
    node ∈ decoratedForest fields branches ↔
      ∃ branch ∈ branches, decorated fields branch.name branch = node := by
  simp [decoratedForest, mem_sortSiblings]

/-- A model is built exactly when no kept branch is higher than the depth bound. -/
theorem model_eq (trie : PathTrie) (fields : List Field) (helpers : List String) (maxDepth : Nat) :
    model trie fields helpers maxDepth =
      if ∀ branch ∈ keptBranches trie helpers, branch.height ≤ maxDepth then
        .ok (decoratedForest fields (keptBranches trie helpers))
      else .error (.potentialLoop .metadata maxDepth) := by
  have hkept : (trie.branches.filter fun branch => !helpers.contains branch.name) =
      keptBranches trie helpers := rfl
  simp only [model, decorate_eq, hkept]
  rw [mapM_guarded (fun branch : PathNode => branch.height ≤ maxDepth)]
  by_cases hfits : ∀ branch ∈ keptBranches trie helpers, branch.height ≤ maxDepth
  · rw [if_pos hfits, if_pos hfits]
    rfl
  · rw [if_neg hfits, if_neg hfits]
    rfl

theorem eq_decoratedForest_of_model {trie : PathTrie} {fields : List Field} {helpers : List String}
    {maxDepth : Nat} {nodes : List MetadataNode}
    (hbuilt : model trie fields helpers maxDepth = .ok nodes) :
    nodes = decoratedForest fields (keptBranches trie helpers) := by
  rw [model_eq] at hbuilt
  split at hbuilt
  · exact (Except.ok.inj hbuilt).symm
  · cases hbuilt

/-- A trie that was built is also decorated, whatever the fields and the helpers. -/
theorem exists_model_of_ofPaths {paths : List String} {maxDepth : Nat} {trie : PathTrie}
    (hbuilt : PathTrie.ofPaths paths maxDepth = .ok trie) (fields : List Field)
    (helpers : List String) :
    ∃ nodes, model trie fields helpers maxDepth = .ok nodes := by
  have hheight := PathTrie.height_le_of_ofPaths hbuilt
  have hkept : ∀ branch ∈ keptBranches trie helpers, branch.height ≤ maxDepth :=
    fun branch hbranch => hheight branch (List.mem_filter.mp hbranch).1
  exact ⟨_, (model_eq trie fields helpers maxDepth).trans (if_pos hkept)⟩

/-- Decoration makes no line of nodes longer. -/
theorem height_decorated_le {fields : List Field} {fieldName : String} {node : PathNode}
    {bound : Nat} (hnode : node.height ≤ bound) :
    (decorated fields fieldName node).height ≤ bound := by
  induction bound generalizing fieldName node with
  | zero =>
    have hpos := node.height_pos
    omega
  | succ bound ih =>
    refine height_le_succ_iff.mpr fun below hbelow => ?_
    obtain ⟨child, hchild, rfl⟩ := mem_children_decorated.mp hbelow
    exact ih (PathNode.height_le_succ_iff.mp hnode child hchild)

/-- No line of nodes in a model is longer than the depth bound under which it was built. -/
theorem height_le_of_model {trie : PathTrie} {fields : List Field} {helpers : List String}
    {maxDepth : Nat} {nodes : List MetadataNode}
    (hbuilt : model trie fields helpers maxDepth = .ok nodes) :
    ∀ node ∈ nodes, node.height ≤ maxDepth := by
  rw [model_eq] at hbuilt
  split at hbuilt
  · next hfits =>
    cases hbuilt
    intro node hnode
    obtain ⟨branch, hbranch, rfl⟩ := mem_decoratedForest.mp hnode
    exact height_decorated_le (hfits branch hbranch)
  · cases hbuilt

end MetadataNode

end DocModel
