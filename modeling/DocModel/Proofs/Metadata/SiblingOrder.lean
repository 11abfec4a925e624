import DocModel.Proofs.Metadata.Rank
import Mathlib

/-!
The order of siblings. Every level of a model holds what the trie has there, sorted stably by the places
that the fields give: first by the declared order, then by the place of declaration, and what is missing
comes last.
-/

namespace DocModel.MetadataNode

/-- A number that may be missing, which is then greater than all others. -/
def lastOf {α : Type} : Option α → WithTop α
  | none => ⊤
  | some a => a

/-- The place of a path among its siblings, by the last field of its name: the order that the field
declares, and then where it was declared. -/
def place (fields : List Field) (fieldName : String) : WithTop Int ×ₗ WithTop Nat :=
  toLex (lastOf ((Field.last? fields fieldName).bind (·.order)),
    lastOf ((Field.last? fields fieldName).bind (·.absoluteOrder)))

theorem compares_compareLast {α : Type} [LinearOrder α] {f : α → Int} (hf : StrictMono f)
    (a b : Option α) : (compareLast (a.map f) (b.map f)).Compares (lastOf a) (lastOf b) := by
  cases a with
  | none =>
    cases b with
    | none => rfl
    | some b => exact WithTop.coe_lt_top b
  | some a =>
    cases b with
    | none => exact WithTop.coe_lt_top a
    | some b =>
      simp only [Option.map_some, compareLast, lastOf]
      rcases lt_trichotomy a b with hlt | rfl | hgt
      · rw [compare_lt_iff_lt.mpr (hf hlt)]
        exact WithTop.coe_lt_coe.mpr hlt
      · rw [compare_eq_iff_eq.mpr rfl]
        rfl
      · rw [compare_gt_iff_gt.mpr (hf hgt)]
        exact WithTop.coe_lt_coe.mpr hgt

theorem compares_then {α β : Type} [LinearOrder α] [LinearOrder β] {first second : Ordering} {a a' : α}
    {b b' : β} (hfirst : first.Compares a a') (hsecond : second.Compares b b') :
    (first.then second).Compares (toLex (a, b)) (toLex (a', b')) := by
  cases first with
  | lt => exact Prod.Lex.toLex_lt_toLex.mpr (.inl hfirst)
  | gt => exact Prod.Lex.toLex_lt_toLex.mpr (.inl hfirst)
  | eq =>
    obtain rfl : a = a' := hfirst
    cases second with
    | lt => exact Prod.Lex.toLex_lt_toLex.mpr (.inr ⟨rfl, hsecond⟩)
    | gt => exact Prod.Lex.toLex_lt_toLex.mpr (.inr ⟨rfl, hsecond⟩)
    | eq =>
      obtain rfl : b = b' := hsecond
      rfl

/-- Nodes are compared as their places are. -/
theorem compares_rank (fields : List Field) (a b : MetadataNode) :
    ((a.rank fields).compare (b.rank fields)).Compares (place fields a.fieldName)
      (place fields b.fieldName) := by
  have horder := compares_compareLast strictMono_id ((Field.last? fields a.fieldName).bind (·.order))
    ((Field.last? fields b.fieldName).bind (·.order))
  have habsolute := compares_compareLast (f := Int.ofNat) (fun _ _ => Int.ofNat_lt.mpr)
    ((Field.last? fields a.fieldName).bind (·.absoluteOrder))
    ((Field.last? fields b.fieldName).bind (·.absoluteOrder))
  rw [Option.map_id] at horder
  exact compares_then horder habsolute

theorem precedes_iff_place_le {fields : List Field} {a b : MetadataNode} :
    precedes fields a b = true ↔ place fields a.fieldName ≤ place fields b.fieldName := by
  have hcompares := compares_rank fields a b
  rw [precedes, bne_iff_ne, ← not_lt]
  exact not_congr hcompares.eq_gt

/-- The path of a node from its name and the path of the node above it, if there is one. -/
def pathBelow : Option String → String → String
  | none, name => name
  | some above, name => above ++ "." ++ name

/-- Siblings as they should stand, each with the trie node that it comes from: they are those of the trie,
in the order of their places, and those of one place in the order of the trie. So their declared orders
never decrease and come before the nodes that declare none; and where all fields have places of their own,
the nodes without a field come last, in the order of the trie. -/
structure IsSortedLevel (fields : List Field) (above : Option String) (branches : List PathNode)
    (siblings : List (PathNode × MetadataNode)) : Prop where
  perm : (siblings.map Prod.fst).Perm branches
  names : ∀ pair ∈ siblings, pair.2.name = pair.1.name ∧
    pair.2.fieldName = pathBelow above pair.1.name
  ascending : siblings.Pairwise fun a b => place fields a.2.fieldName ≤ place fields b.2.fieldName
  stable : ∀ p, (siblings.filter fun pair => place fields pair.2.fieldName = p).map Prod.fst =
    branches.filter fun branch => place fields (pathBelow above branch.name) = p
  orders : siblings.Pairwise fun a b => lastOf a.2.order ≤ lastOf b.2.order
  undeclared_last : Field.HavePlaces fields → ∃ declared undeclared,
    siblings = declared ++ undeclared ∧
      (∀ pair ∈ declared, pair.2.fieldName ∈ fields.map (·.name)) ∧
      undeclared.map Prod.fst =
        branches.filter fun branch => pathBelow above branch.name ∉ fields.map (·.name)

/-- What holds of some siblings of a model and of all levels below them, each paired with the trie nodes
they come from. -/
inductive EveryLevel (holds : Option String → List PathNode → List (PathNode × MetadataNode) → Prop) :
    Option String → List PathNode → List MetadataNode → Prop where
  | intro {above : Option String} {branches : List PathNode}
      {siblings : List (PathNode × MetadataNode)} (hlevel : holds above branches siblings)
      (hbelow : ∀ pair ∈ siblings,
        EveryLevel holds (some pair.2.fieldName) pair.1.children pair.2.children) :
      EveryLevel holds above branches (siblings.map Prod.snd)

section Level

variable (fields : List Field) (above : Option String) (branches : List PathNode)

/-- The node of a trie node, at its path. -/
def decoratedBelow (branch : PathNode) : MetadataNode :=
  decorated fields (pathBelow above branch.name) branch

/-- Some trie nodes in the order of their places, each with its node of the model. -/
def sortedLevel : List (PathNode × MetadataNode) :=
  (stableSort (fun a b => precedes fields (decoratedBelow fields above a)
    (decoratedBelow fields above b)) branches).map fun branch =>
      (branch, decoratedBelow fields above branch)

theorem map_snd_sortedLevel :
    (sortedLevel fields above branches).map Prod.snd =
      sortSiblings fields (branches.map (decoratedBelow fields above)) := by
  rw [sortSiblings, ← map_stableSort, sortedLevel, List.map_map]
  rfl

theorem order_decorated (fieldName : String) (node : PathNode) :
    (decorated fields fieldName node).order =
      (Field.last? fields fieldName).bind (·.order) := by
  rw [decorated]
  rfl

theorem isSortOrder_decoratedBelow : IsSortOrder fun a b =>
    precedes fields (decoratedBelow fields above a) (decoratedBelow fields above b) where
  total _ _ := (isSortOrder_precedes fields).total _ _
  trans _ _ _ := (isSortOrder_precedes fields).trans _ _ _

theorem pairwise_sortedLevel : (sortedLevel fields above branches).Pairwise fun a b =>
    place fields a.2.fieldName ≤ place fields b.2.fieldName := by
  rw [sortedLevel, List.pairwise_map]
  refine ((isSortOrder_decoratedBelow fields above).pairwise_stableSort branches).imp fun hle => ?_
  exact precedes_iff_place_le.mp hle

theorem filter_sortedLevel (p : WithTop Int ×ₗ WithTop Nat) :
    ((sortedLevel fields above branches).filter fun pair =>
        place fields pair.2.fieldName = p).map Prod.fst =
      branches.filter fun branch => place fields (pathBelow above branch.name) = p := by
  have hpath (branch : PathNode) :
      (decoratedBelow fields above branch).fieldName = pathBelow above branch.name :=
    fieldName_decorated _ _ _
  rw [sortedLevel, List.filter_map, List.map_map]
  simp only [Function.comp_def, hpath, List.map_id']
  refine (isSortOrder_decoratedBelow fields above).filter_stableSort_of_tied (fun a b ha hb => ?_) _
  rw [precedes_iff_place_le, hpath, hpath, of_decide_eq_true ha, of_decide_eq_true hb]

/-- Where fields have places, the paths without a field are those at the last place. -/
theorem place_eq_top_iff {fields : List Field} (hplaces : Field.HavePlaces fields) {fieldName : String} :
    place fields fieldName = ⊤ ↔ fieldName ∉ fields.map (·.name) := by
  have htop : (⊤ : WithTop Int ×ₗ WithTop Nat) = toLex (⊤, ⊤) := rfl
  rw [← Field.last?_eq_none_iff, htop, place, toLex_inj, Prod.mk.injEq]
  cases hlast : Field.last? fields fieldName with
  | none => simp [lastOf]
  | some field =>
    have hplaced := hplaces.placed field (Field.mem_of_last?_eq_some hlast)
    obtain ⟨place, hplace⟩ := Option.ne_none_iff_exists'.mp hplaced
    simp [hplace, lastOf]

theorem isSortedLevel_sortedLevel :
    IsSortedLevel fields above branches (sortedLevel fields above branches) where
  perm := by
    have hfst : (Prod.fst ∘ fun branch => (branch, decoratedBelow fields above branch)) = id := rfl
    rw [sortedLevel, List.map_map, hfst, List.map_id]
    exact stableSort_perm _ branches
  names := by
    intro pair hpair
    obtain ⟨branch, _, rfl⟩ := List.mem_map.mp hpair
    exact ⟨name_decorated _ _ _, fieldName_decorated _ _ _⟩
  ascending := pairwise_sortedLevel fields above branches
  stable := filter_sortedLevel fields above branches
  orders := by
    have horder : ∀ pair ∈ sortedLevel fields above branches,
        pair.2.order = (Field.last? fields pair.2.fieldName).bind (·.order) := by
      intro pair hpair
      obtain ⟨branch, _, rfl⟩ := List.mem_map.mp hpair
      simp only [decoratedBelow, order_decorated, fieldName_decorated]
    refine (pairwise_sortedLevel fields above branches).imp_of_mem fun ha hb hle => ?_
    rw [horder _ ha, horder _ hb]
    exact Prod.Lex.monotone_fst _ _ hle
  undeclared_last := by
    intro hplaces
    refine ⟨_, _, (filter_append_filter_of_pairwise
      (p := fun pair => place fields pair.2.fieldName = ⊤)
      (pairwise_sortedLevel fields above branches) fun a b hle ha => ?_).symm, fun pair hpair => ?_, ?_⟩
    · rw [decide_eq_true_eq] at ha ⊢
      exact top_le_iff.mp (ha ▸ hle)
    · have hplace := (List.mem_filter.mp hpair).2
      rw [Bool.not_eq_true', decide_eq_false_iff_not, place_eq_top_iff hplaces, not_not] at hplace
      exact hplace
    · rw [filter_sortedLevel]
      exact List.filter_congr fun branch _ => decide_eq_decide.mpr (place_eq_top_iff hplaces)

end Level

/-- Sorting the nodes of some trie nodes yields a level in order, if their children are in order. -/
theorem everyLevel_of_children {fields : List Field} {branches : List PathNode}
    (hchildren : ∀ branch ∈ branches, ∀ fieldName,
      EveryLevel (IsSortedLevel fields) (some fieldName) branch.children
        (decorated fields fieldName branch).children) (above : Option String) :
    EveryLevel (IsSortedLevel fields) above branches
      (sortSiblings fields (branches.map (decoratedBelow fields above))) := by
  have hsorted := isSortedLevel_sortedLevel fields above branches
  rw [← map_snd_sortedLevel]
  refine .intro hsorted fun pair hpair => ?_
  have hmem : pair.1 ∈ branches := hsorted.perm.mem_iff.mp (List.mem_map_of_mem hpair)
  obtain ⟨branch, _, rfl⟩ := List.mem_map.mp hpair
  rw [decoratedBelow, fieldName_decorated]
  exact hchildren branch hmem _

theorem everyLevel_children_decorated (fields : List Field) (fieldName : String) (node : PathNode) :
    EveryLevel (IsSortedLevel fields) (some fieldName) node.children
      (decorated fields fieldName node).children := by
  induction node using PathNode.induction_on_children generalizing fieldName with
  | step node ih =>
    rw [children_decorated]
    exact everyLevel_of_children (fun child hchild name => ih child hchild name) (some fieldName)

/-- The siblings of a model are in order. The comparison of nodes is that of their places, so that any two
siblings can be compared and comparisons can be chained. On every level the siblings are what the trie has
there, at the top without what is named like a helper: sorted by their places, those of one place in the
order of the trie. So declared orders never decrease along siblings and come before the nodes that declare
none, and for compiled fields the nodes without a field come last, in the order of the trie. -/
theorem siblings_sorted_by_place {trie : PathTrie} {fields : List Field} {helpers : List String}
    {maxDepth : Nat} {nodes : List MetadataNode}
    (hbuilt : model trie fields helpers maxDepth = .ok nodes) :
    EveryLevel (IsSortedLevel fields) none (keptBranches trie helpers) nodes ∧
      (∀ directives options, Field.compileAll directives = .ok (fields, options) →
        Field.HavePlaces fields) ∧
      (∀ a b : MetadataNode, ((a.rank fields).compare (b.rank fields)).Compares
        (place fields a.fieldName) (place fields b.fieldName)) ∧
      IsSortOrder (precedes fields) := by
  refine ⟨?_, fun _ _ => Field.havePlaces_of_compileAll, compares_rank fields,
    isSortOrder_precedes fields⟩
  rw [eq_decoratedForest_of_model hbuilt]
  exact everyLevel_of_children
    (fun branch _ fieldName => everyLevel_children_decorated fields fieldName branch) none

/-- A field without an order, and one with an order that is declared behind it. -/
def tripFields : List Field :=
  [{ Field.bare "trip.to" with absoluteOrder := some 0 },
    { Field.bare "trip.from" with order := some 1, absoluteOrder := some 1 }]

theorem siblings_sorted_by_place_trip :
    ∃ trie nodes, PathTrie.ofPaths ["put", "trip.note", "trip.to", "trip.from", "trip.day"] 2 = .ok trie ∧
      model trie tripFields ["put"] 2 = .ok nodes ∧
      EveryLevel (IsSortedLevel tripFields) none (keptBranches trie ["put"]) nodes ∧
      nodes.map (·.name) = ["trip"] ∧
      nodes.flatMap (·.children.map (·.name)) = ["from", "to", "note", "day"] := by
  obtain ⟨trie, htrie⟩ : ∃ trie, PathTrie.ofPaths
      ["put", "trip.note", "trip.to", "trip.from", "trip.day"] 2 = .ok trie := ⟨_, rfl⟩
  obtain ⟨nodes, hbuilt⟩ := exists_model_of_ofPaths htrie tripFields ["put"]
  have hnames : ((PathTrie.ofPaths ["put", "trip.note", "trip.to", "trip.from", "trip.day"] 2).bind
      fun trie => (model trie tripFields ["put"] 2).map fun nodes =>
        (nodes.map (·.name), nodes.flatMap (·.children.map (·.name)))).toOption =
          some (["trip"], ["from", "to", "note", "day"]) := by decide +kernel
  simp only [htrie, hbuilt, Except.bind, Except.map, Except.toOption, Option.some.injEq,
    Prod.mk.injEq] at hnames
  exact ⟨trie, nodes, htrie, hbuilt, (siblings_sorted_by_place hbuilt).1, hnames⟩

end DocModel.MetadataNode
