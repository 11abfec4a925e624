import DocModel.Proofs.Path.Segments
import DocModel.Proofs.Traversal
import DocModel.Trie

/-!
The height of path tries. A trie is built exactly when no path has more segments than the depth bound,
and then no line of nodes in it is longer than that bound.
-/

namespace DocModel

/-- The greatest of some numbers, zero when there are none. -/
def greatest (numbers : List Nat) : Nat := numbers.foldr max 0

theorem greatest_le_iff {bound : Nat} {numbers : List Nat} :
    greatest numbers ≤ bound ↔ ∀ n ∈ numbers, n ≤ bound := by
  induction numbers with
  | nil => simp [greatest]
  | cons first rest ih =>
    rw [greatest, List.foldr_cons, ← greatest, Nat.max_le, ih, List.forall_mem_cons]

namespace PathNode

theorem sizeOf_lt_of_mem_children {node child : PathNode} (hmem : child ∈ node.children) :
    sizeOf child < sizeOf node := by
  have hlt := List.sizeOf_lt_of_mem hmem
  cases node
  simp only [mk.sizeOf_spec] at hlt ⊢
  omega

/-- What passes from the children of every node to the node holds of all nodes. -/
theorem induction_on_children {motive : PathNode → Prop}
    (step : ∀ node, (∀ child ∈ node.children, motive child) → motive node) (node : PathNode) :
    motive node :=
  step node fun child _ => induction_on_children step child
termination_by sizeOf node
decreasing_by exact sizeOf_lt_of_mem_children ‹_›

/-- The count of nodes on the longest line from a node downwards. -/
def height (node : PathNode) : Nat :=
  greatest (node.children.map fun child => child.height) + 1
termination_by sizeOf node
decreasing_by exact sizeOf_lt_of_mem_children ‹_›

/-- A node is at most one level higher than its children. -/
theorem height_le_succ_iff {node : PathNode} {bound : Nat} :
    node.height ≤ bound + 1 ↔ ∀ child ∈ node.children, child.height ≤ bound := by
  rw [height, Nat.add_le_add_iff_right, greatest_le_iff]
  simp

theorem height_pos (node : PathNode) : 0 < node.height := by
  rw [height]
  omega

/-- One node under the other for the segments of a path, without a bound on their number. -/
def line : List String → List PathNode
  | [] => []
  | segment :: rest => [⟨segment, line rest⟩]

theorem chain?_cons (segment : String) (rest : List String) (depth : Nat) :
    chain? (segment :: rest) depth =
      if rest.length + 1 ≤ depth then some ⟨segment, line rest⟩ else none := by
  induction rest generalizing segment depth with
  | nil => cases depth <;> simp [chain?, line]
  | cons next rest ih =>
    cases depth with
    | zero => simp [chain?]
    | succ depth =>
      rw [chain?, ih]
      · by_cases hfits : rest.length + 1 ≤ depth <;> simp [hfits, line]
      · simp

theorem height_line_le (segments : List String) :
    ∀ node ∈ line segments, node.height ≤ segments.length := by
  induction segments with
  | nil => simp [line]
  | cons segment rest ih =>
    intro node hnode
    obtain rfl : node = ⟨segment, line rest⟩ := by simpa [line] using hnode
    exact height_le_succ_iff.mpr ih

/-- Changing the first node with a name yields nothing but the nodes from before and the changed
form of one of them. -/
theorem mem_updateFirst {name : String} {change : PathNode → PathNode} {nodes : List PathNode}
    {node : PathNode} (hmem : node ∈ updateFirst name change nodes) :
    node ∈ nodes ∨ ∃ old ∈ nodes, node = change old := by
  induction nodes with
  | nil => simp [updateFirst] at hmem
  | cons first rest ih =>
    rw [updateFirst] at hmem
    split at hmem
    · rcases List.mem_cons.mp hmem with rfl | hrest
      · exact .inr ⟨first, List.mem_cons_self, rfl⟩
      · exact .inl (List.mem_cons_of_mem first hrest)
    · rcases List.mem_cons.mp hmem with rfl | hrest
      · exact .inl List.mem_cons_self
      · rcases ih hrest with hold | ⟨old, hold, rfl⟩
        · exact .inl (List.mem_cons_of_mem first hold)
        · exact .inr ⟨old, List.mem_cons_of_mem first hold, rfl⟩

/-- Grafting a chain that keeps a bound onto nodes that keep it makes no node higher than the bound,
wherever the grafting stops. -/
theorem height_graft_le {steps bound : Nat} {siblings : List PathNode} {branch : PathNode}
    (hsiblings : ∀ node ∈ siblings, node.height ≤ bound) (hbranch : branch.height ≤ bound) :
    ∀ node ∈ graft steps siblings branch, node.height ≤ bound := by
  induction steps generalizing bound siblings branch with
  | zero => simpa [graft] using hsiblings
  | succ steps ih =>
    intro node hnode
    rw [graft] at hnode
    split at hnode
    · rcases List.mem_append.mp hnode with hold | hnew
      · exact hsiblings node hold
      · obtain rfl : node = branch := by simpa using hnew
        exact hbranch
    · exact hsiblings node hnode
    · next below _ _ hchildren =>
      rcases mem_updateFirst hnode with hold | ⟨old, hold, rfl⟩
      · exact hsiblings node hold
      · obtain ⟨bound, rfl⟩ : ∃ smaller, bound = smaller + 1 :=
          Nat.exists_eq_succ_of_ne_zero (by have := height_pos branch; omega)
        have hbelow := height_le_succ_iff.mp hbranch below (by simp [hchildren])
        exact height_le_succ_iff.mpr (ih (height_le_succ_iff.mp (hsiblings old hold)) hbelow)

end PathNode

namespace PathTrie

open PathNode

/-- The nodes with the chain of one more path grafted onto them. -/
def graftPath (nodes : List PathNode) (path : String) : List PathNode :=
  (line (Path.segments path)).foldl (graft maxGraftSteps) nodes

theorem addPath_eq (trie : PathTrie) (path : String) (maxDepth : Nat) :
    trie.addPath path maxDepth =
      if (Path.segments path).length ≤ maxDepth then .ok ⟨graftPath trie.branches path⟩
      else .error (.potentialLoop .trie maxDepth) := by
  rw [addPath, graftPath]
  cases hsegments : Path.segments path with
  | nil => exact absurd hsegments (Path.segments_ne_nil path)
  | cons segment rest =>
    rw [chain?_cons]
    by_cases hfits : rest.length + 1 ≤ maxDepth <;> simp [hfits, line]

/-- A trie is built exactly when every path keeps the depth bound. -/
theorem ofPaths_eq (paths : List String) (maxDepth : Nat) :
    ofPaths paths maxDepth =
      if ∀ path ∈ paths, (Path.segments path).length ≤ maxDepth then
        .ok ⟨paths.foldl graftPath []⟩
      else .error (.potentialLoop .trie maxDepth) := by
  have hbranches : paths.foldl (fun trie path => ⟨graftPath trie.branches path⟩) empty =
      (⟨paths.foldl graftPath []⟩ : PathTrie) :=
    List.foldl_hom PathTrie.mk fun _ _ => rfl
  simp only [ofPaths, addPath_eq]
  rw [foldlM_guarded, hbranches]

theorem height_graftPath_le {nodes : List PathNode} {path : String} {bound : Nat}
    (hnodes : ∀ node ∈ nodes, node.height ≤ bound)
    (hpath : (Path.segments path).length ≤ bound) :
    ∀ node ∈ graftPath nodes path, node.height ≤ bound := by
  have hline := height_line_le (Path.segments path)
  rw [graftPath]
  cases hsegments : Path.segments path with
  | nil => exact hnodes
  | cons segment rest =>
    rw [hsegments] at hline hpath
    exact height_graft_le hnodes (Nat.le_trans (hline _ List.mem_cons_self) hpath)

/-- No line of nodes in a trie is longer than the depth bound under which it was built. -/
theorem height_le_of_ofPaths {paths : List String} {maxDepth : Nat} {trie : PathTrie}
    (hbuilt : ofPaths paths maxDepth = .ok trie) :
    ∀ node ∈ trie.branches, node.height ≤ maxDepth := by
  rw [ofPaths_eq] at hbuilt
  split at hbuilt
  · next hpaths =>
    cases hbuilt
    refine List.foldlRecOn (motive := fun nodes => ∀ node ∈ nodes, node.height ≤ maxDepth) paths
      graftPath ?_ fun nodes hnodes path hpath => height_graftPath_le hnodes (hpaths path hpath)
    exact fun node hnode => absurd hnode List.not_mem_nil
  · cases hbuilt

end PathTrie

end DocModel
