import DocModel.Proofs.Metadata.Decoration

/-!
The positions of a metadata model: every node together with the nodes above it, listed in pre-order.
-/

namespace DocModel.MetadataNode

/-- A node of a model with the nodes above it, the top one first. -/
structure Position where
  ancestors : List MetadataNode
  node : MetadataNode

namespace Position

/-- The names on the way from the top of the model to the node, its own last. -/
def names (position : Position) : List String :=
  (position.ancestors ++ [position.node]).map (·.name)

/-- The same node in a model that has one more node above all of its ancestors. -/
def under (top : MetadataNode) (position : Position) : Position :=
  ⟨top :: position.ancestors, position.node⟩

@[simp] theorem names_under (top : MetadataNode) (position : Position) :
    (under top position).names = top.name :: position.names := rfl

theorem names_ne_nil (position : Position) : position.names ≠ [] := by
  simp [names]

/-- The positions of nodes that stand one below the other, the first one at the top. -/
def ofLine : List MetadataNode → List Position
  | [] => []
  | top :: rest => ⟨[], top⟩ :: (ofLine rest).map (under top)

/-- The positions of the proper ancestors of a node. -/
def above (position : Position) : List Position := ofLine position.ancestors

@[simp] theorem above_under (top : MetadataNode) (position : Position) :
    (under top position).above = ⟨[], top⟩ :: position.above.map (under top) := rfl

end Position

/-- The positions of a node and of all nodes below it: the node before what is below it, and what is
below a child before the next child. -/
def positionsFrom (node : MetadataNode) : List Position :=
  ⟨[], node⟩ :: (node.children.flatMap fun child => positionsFrom child).map (Position.under node)
termination_by sizeOf node
decreasing_by exact sizeOf_lt_of_mem_children ‹_›

/-- The positions of all nodes of a model, in pre-order. -/
def positions (model : List MetadataNode) : List Position :=
  model.flatMap positionsFrom

theorem positionsFrom_eq (node : MetadataNode) :
    positionsFrom node = ⟨[], node⟩ :: (positions node.children).map (Position.under node) := by
  rw [positionsFrom]
  rfl

/-- What every node passes on to its children holds at all positions below a node that has it. -/
theorem forall_mem_positionsFrom {motive : MetadataNode → Prop}
    (hpass : ∀ node, motive node → ∀ child ∈ node.children, motive child) {node : MetadataNode}
    (hnode : motive node) {position : Position} (hmem : position ∈ positionsFrom node) :
    motive position.node := by
  induction node using induction_on_children generalizing position with
  | step node ih =>
    rw [positionsFrom_eq, List.mem_cons, List.mem_map] at hmem
    rcases hmem with rfl | ⟨below, hbelow, rfl⟩
    · exact hnode
    · obtain ⟨child, hchild, hinner⟩ := List.mem_flatMap.mp hbelow
      have hbelow := ih child hchild (hpass node hnode child hchild) hinner
      exact hbelow

end DocModel.MetadataNode
