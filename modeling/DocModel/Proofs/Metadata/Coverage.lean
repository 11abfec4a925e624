import DocModel.Proofs.Metadata.Position
import DocModel.Proofs.Trie.Chains
import Mathlib.Data.List.Perm.Basic

/-!
What a metadata model says about which paths. It has one node for every dot prefix of the paths that are
not a helper's, in its place below the shorter prefixes, and describes it by the field that counts.
-/

namespace DocModel

theorem Field.last?_eq_getLast? (fields : List Field) (name : String) :
    last? fields name = (fields.filter fun field => field.name == name).getLast? := by
  rw [List.getLast?_filter, last?]

namespace MetadataNode

open PathNode

theorem positions_sortSiblings_perm (fields : List Field) (nodes : List MetadataNode) :
    (positions (sortSiblings fields nodes)).Perm (positions nodes) :=
  (sortSiblings_perm fields nodes).flatMap_right positionsFrom

theorem names_positions_perm_of_siblings {fields : List Field} {siblings : List PathNode}
    (pathOf : PathNode → String)
    (hsiblings : ∀ node ∈ siblings,
      ((positionsFrom (decorated fields (pathOf node) node)).map (·.names)).Perm (chainsFrom node)) :
    ((positions (sortSiblings fields
      (siblings.map fun node => decorated fields (pathOf node) node))).map (·.names)).Perm
        (chains siblings) := by
  refine ((positions_sortSiblings_perm fields _).map _).trans ?_
  rw [positions, List.flatMap_map, List.map_flatMap]
  exact List.Perm.flatMap_left siblings hsiblings

theorem names_positionsFrom_perm (fields : List Field) (fieldName : String) (node : PathNode) :
    ((positionsFrom (decorated fields fieldName node)).map (·.names)).Perm (chainsFrom node) := by
  induction node using PathNode.induction_on_children generalizing fieldName with
  | step node ih =>
    -- The paths of the children depend on the node; their names do not.
    have hbelow := names_positions_perm_of_siblings (fun child => fieldName ++ "." ++ child.name)
      fun child hchild => ih child hchild _
    rw [positionsFrom_eq, chainsFrom_eq, List.map_cons, List.map_map, children_decorated]
    have hown : (Position.mk [] (decorated fields fieldName node)).names = [node.name] := by
      simp [Position.names]
    have hunder : (·.names) ∘ Position.under (decorated fields fieldName node) =
        (node.name :: ·) ∘ (·.names) := by
      funext position
      simp
    rw [hown, hunder, ← List.map_map]
    exact (hbelow.map _).cons _

/-- The names at the positions of a model are the chains of the branches it was made of. Only siblings
may have changed places. -/
theorem names_positions_perm (fields : List Field) (branches : List PathNode) :
    ((positions (decoratedForest fields branches)).map (·.names)).Perm (chains branches) :=
  names_positions_perm_of_siblings (·.name) fun branch _ =>
    names_positionsFrom_perm fields branch.name branch

namespace Position

/-- The paths of the nodes on the way from the top of the model to the node, its own last. -/
def fieldNames (position : Position) : List String :=
  (position.ancestors ++ [position.node]).map (·.fieldName)

@[simp] theorem fieldNames_under (top : MetadataNode) (position : Position) :
    (under top position).fieldNames = top.fieldName :: position.fieldNames := rfl

end Position

/-- What a field says about a node, together with the node's type. Without a field nothing is said, and a
node with children is an object in any case. -/
structure Described (field : Option Field) (node : MetadataNode) : Prop where
  label_eq : node.label = field.bind (·.label)
  hint_eq : node.hint = field.bind (·.hint)
  descr_eq : node.descr = field.bind (·.descr)
  min_eq : node.min = field.bind (·.min)
  max_eq : node.max = field.bind (·.max)
  minLength_eq : node.minLength = field.bind (·.minLength)
  maxLength_eq : node.maxLength = field.bind (·.maxLength)
  order_eq : node.order = field.bind (·.order)
  options_eq : node.options = field.bind (·.options)
  type_of_children : node.children ≠ [] → node.type = .object
  type_of_leaf : node.children = [] → node.type = (field.map (·.type)).getD .string

theorem described_ofField (field : Option Field) (name fieldName : String)
    (children : List MetadataNode) : Described field (ofField field name fieldName children) where
  label_eq := rfl
  hint_eq := rfl
  descr_eq := rfl
  min_eq := rfl
  max_eq := rfl
  minLength_eq := rfl
  maxLength_eq := rfl
  order_eq := rfl
  options_eq := rfl
  type_of_children := fun hne => if_neg (by simpa [ofField] using hne)
  type_of_leaf := fun hnil => if_pos (by simpa [ofField] using hnil)

/-- Below a node whose path ends in its name, every node has the path of the names that lead to it. -/
theorem fieldNames_of_mem_positionsFrom {fields : List Field} {above : List String}
    {node : PathNode} {position : Position}
    (hmem : position ∈
      positionsFrom (decorated fields (Path.ofSegments (above ++ [node.name])) node)) :
    position.fieldNames =
      (Path.leading position.names).map fun names => Path.ofSegments (above ++ names) := by
  induction node using PathNode.induction_on_children generalizing above position with
  | step node ih =>
    rw [positionsFrom_eq, List.mem_cons, List.mem_map] at hmem
    rcases hmem with rfl | ⟨below, hbelow, rfl⟩
    · simp [Position.fieldNames, Position.names, Path.leading]
    · rw [positions, List.mem_flatMap] at hbelow
      obtain ⟨child, hchild, hbelow⟩ := hbelow
      obtain ⟨inner, hinner, rfl⟩ := mem_children_decorated.mp hchild
      rw [← Path.ofSegments_append_singleton (by simp)] at hbelow
      rw [Position.fieldNames_under, Position.names_under, ih inner hinner hbelow, Path.leading]
      simp [Function.comp_def]

section DecoratedForest

variable {fields : List Field} {branches : List PathNode} {position : Position}

theorem fieldNames_of_mem_positions
    (hmem : position ∈ positions (decoratedForest fields branches)) :
    position.fieldNames = (Path.leading position.names).map Path.ofSegments := by
  rw [positions, List.mem_flatMap] at hmem
  obtain ⟨top, htop, hmem⟩ := hmem
  obtain ⟨branch, _, rfl⟩ := mem_decoratedForest.mp htop
  have hname : branch.name = Path.ofSegments ([] ++ [branch.name]) := by
    rw [List.nil_append, Path.ofSegments_singleton]
  rw [hname] at hmem
  exact fieldNames_of_mem_positionsFrom hmem

theorem fieldName_of_mem_positions
    (hmem : position ∈ positions (decoratedForest fields branches)) :
    position.node.fieldName = Path.ofSegments position.names := by
  have hlast := congrArg List.getLast? (fieldNames_of_mem_positions hmem)
  rw [List.getLast?_map, Path.getLast?_leading position.names_ne_nil] at hlast
  simpa [Position.fieldNames] using hlast

variable (fields branches) in
theorem fieldName_positions_perm :
    ((positions (decoratedForest fields branches)).map (·.node.fieldName)).Perm
      ((chains branches).map Path.ofSegments) := by
  have hnames : (positions (decoratedForest fields branches)).map (·.node.fieldName) =
      ((positions (decoratedForest fields branches)).map (·.names)).map Path.ofSegments := by
    rw [List.map_map]
    exact List.map_congr_left fun position hmem => fieldName_of_mem_positions hmem
  rw [hnames]
  exact (names_positions_perm fields branches).map _

theorem exists_decorated_of_mem_positions
    (hmem : position ∈ positions (decoratedForest fields branches)) :
    ∃ fieldName node, decorated fields fieldName node = position.node := by
  obtain ⟨top, htop, hmem⟩ := List.mem_flatMap.mp hmem
  obtain ⟨branch, _, rfl⟩ := mem_decoratedForest.mp htop
  refine forall_mem_positionsFrom
    (motive := fun node => ∃ fieldName inner, decorated fields fieldName inner = node)
    ?_ ⟨_, branch, rfl⟩ hmem
  rintro _ ⟨fieldName, node, rfl⟩ child hchild
  obtain ⟨inner, _, rfl⟩ := mem_children_decorated.mp hchild
  exact ⟨_, inner, rfl⟩

theorem described_of_mem_positions
    (hmem : position ∈ positions (decoratedForest fields branches)) :
    Described ((fields.filter fun field => field.name == position.node.fieldName).getLast?)
      position.node := by
  obtain ⟨fieldName, node, hnode⟩ := exists_decorated_of_mem_positions hmem
  rw [← hnode, fieldName_decorated, ← Field.last?_eq_getLast?, decorated]
  exact described_ofField _ _ _ _

end DecoratedForest

section OfPaths

variable {paths : List String} {maxDepth : Nat} {trie : PathTrie} {helpers : List String}

theorem mem_chains_keptBranches (hlimit : maxDepth ≤ PathTrie.maxGraftSteps)
    (htrie : PathTrie.ofPaths paths maxDepth = .ok trie) {chain : List String} :
    chain ∈ chains (keptBranches trie helpers) ↔
      ∃ path ∈ paths, Path.head path ∉ helpers ∧ chain ∈ Path.leading (Path.segments path) := by
  rw [keptBranches, mem_chains_filter fun name => !helpers.contains name,
    PathTrie.mem_chains_of_ofPaths hlimit htrie]
  constructor
  · rintro ⟨⟨path, hpath, hchain⟩, hhead⟩
    have hkept := hhead _ (Path.head?_of_mem_leading hchain)
    exact ⟨path, hpath, by simpa using hkept, hchain⟩
  · rintro ⟨path, hpath, hhead, hchain⟩
    refine ⟨⟨path, hpath, hchain⟩, fun name hname => ?_⟩
    rw [Path.head?_of_mem_leading hchain, Option.mem_some] at hname
    simpa [← hname] using hhead

theorem segments_ofSegments_of_mem_chains (hlimit : maxDepth ≤ PathTrie.maxGraftSteps)
    (htrie : PathTrie.ofPaths paths maxDepth = .ok trie) :
    ∀ chain ∈ chains (keptBranches trie helpers),
      Path.segments (Path.ofSegments chain) = chain := by
  intro chain hmem
  obtain ⟨path, _, _, hchain⟩ := (mem_chains_keptBranches hlimit htrie).mp hmem
  exact Path.segments_ofSegments_of_mem_leading hchain

theorem segments_fieldName_of_mem_positions (hlimit : maxDepth ≤ PathTrie.maxGraftSteps)
    (htrie : PathTrie.ofPaths paths maxDepth = .ok trie) {fields : List Field} {position : Position}
    (hmem : position ∈ positions (decoratedForest fields (keptBranches trie helpers))) :
    Path.segments position.node.fieldName = position.names := by
  have hnames := (names_positions_perm fields _).mem_iff.mp (List.mem_map_of_mem hmem)
  rw [fieldName_of_mem_positions hmem]
  exact segments_ofSegments_of_mem_chains hlimit htrie _ hnames

theorem nodup_ofSegments_chains (hlimit : maxDepth ≤ PathTrie.maxGraftSteps)
    (htrie : PathTrie.ofPaths paths maxDepth = .ok trie) :
    ((chains (keptBranches trie helpers)).map Path.ofSegments).Nodup := by
  have hnodup := ((PathTrie.distinct_of_ofPaths hlimit htrie).filter
    fun branch => !helpers.contains branch.name).nodup_chains
  refine hnodup.map_on fun chain hchain other hother heq => ?_
  have hsegments := segments_ofSegments_of_mem_chains hlimit htrie chain hchain
  rwa [heq, segments_ofSegments_of_mem_chains hlimit htrie other hother, eq_comm] at hsegments

end OfPaths

/-- A model covers some paths when it has one node for every dot prefix of those that do not begin with a
helper's name, and no other. Every node stands below the nodes of its shorter prefixes, is named by its
last segment and is described by the last field with its path. -/
structure Covers (paths : List String) (fields : List Field) (helpers : List String)
    (nodes : List MetadataNode) : Prop where
  nodup : ((positions nodes).map (·.node.fieldName)).Nodup
  mem_iff : ∀ name, name ∈ (positions nodes).map (·.node.fieldName) ↔
    ∃ path ∈ paths, Path.head path ∉ helpers ∧ name ∈ Path.dotPrefixes path
  placed : ∀ position ∈ positions nodes,
    position.fieldNames = Path.dotPrefixes position.node.fieldName
  named : ∀ position ∈ positions nodes,
    (Path.segments position.node.fieldName).getLast? = some position.node.name
  described : ∀ position ∈ positions nodes,
    Described ((fields.filter fun field => field.name == position.node.fieldName).getLast?)
      position.node

/-- The model of a trie covers the paths of the trie, as long as grafting does not run out of steps. -/
theorem model_covers_paths {paths : List String} {fields : List Field} {helpers : List String}
    {maxDepth : Nat} {trie : PathTrie} {nodes : List MetadataNode}
    (hlimit : maxDepth ≤ PathTrie.maxGraftSteps) (htrie : PathTrie.ofPaths paths maxDepth = .ok trie)
    (hbuilt : model trie fields helpers maxDepth = .ok nodes) :
    Covers paths fields helpers nodes := by
  obtain rfl := eq_decoratedForest_of_model hbuilt
  have hfieldNames := fieldName_positions_perm fields (keptBranches trie helpers)
  constructor
  case nodup =>
    exact hfieldNames.nodup_iff.mpr (nodup_ofSegments_chains hlimit htrie)
  case mem_iff =>
    intro name
    rw [hfieldNames.mem_iff, List.mem_map]
    simp only [mem_chains_keptBranches hlimit htrie, Path.dotPrefixes, List.mem_map]
    tauto
  case placed =>
    intro position hmem
    rw [fieldNames_of_mem_positions hmem, Path.dotPrefixes,
      segments_fieldName_of_mem_positions hlimit htrie hmem]
  case named =>
    intro position hmem
    rw [segments_fieldName_of_mem_positions hlimit htrie hmem]
    simp [Position.names]
  case described =>
    exact fun position hmem => described_of_mem_positions hmem

/-- Paths that share a group, and one that begins with the name of a helper. -/
def guestPaths : List String := ["guest.name", "put.code", "guest.age", "guest.name.first"]

/-- Two fields of one name, of which the last one counts. -/
def ageFields : List Field :=
  [{ Field.bare "guest.age" with order := some 2 },
    { Field.bare "guest.age" with type := .number, order := some 1 }]

theorem model_covers_paths_guest :
    ∃ trie nodes, 3 ≤ PathTrie.maxGraftSteps ∧ PathTrie.ofPaths guestPaths 3 = .ok trie ∧
      model trie ageFields ["put"] 3 = .ok nodes ∧ Covers guestPaths ageFields ["put"] nodes := by
  have hlimit : 3 ≤ PathTrie.maxGraftSteps := by decide
  exact ⟨_, _, hlimit, rfl, rfl, model_covers_paths hlimit rfl rfl⟩

end MetadataNode

end DocModel
