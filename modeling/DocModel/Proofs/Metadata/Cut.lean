import DocModel.Proofs.Metadata.Coverage
import DocModel.Proofs.Metadata.Independence
import DocModel.Proofs.Metadata.Inference

/-!
Required nodes in closed form. A node is required exactly when no line of nodes leads from it down to a
leaf without meeting a node that a field declares as required. So flags depend on the tree and on the
declared names, and not on any order of siblings.
-/

namespace DocModel

namespace PathNode

/-- Forests of the same trees, with siblings in any order at every level: the tree that stands first in
one of them may stand anywhere in the other. -/
inductive Reordered : List PathNode → List PathNode → Prop
  | nil : Reordered [] []
  | cons {name : String} {children twins rest front behind : List PathNode}
      (hchildren : Reordered children twins) (hrest : Reordered rest (front ++ behind)) :
      Reordered (⟨name, children⟩ :: rest) (front ++ ⟨name, twins⟩ :: behind)

theorem Reordered.singleton {name : String} {children twins : List PathNode}
    (hchildren : Reordered children twins) : Reordered [⟨name, children⟩] [⟨name, twins⟩] :=
  @Reordered.cons name children twins [] [] [] hchildren .nil

theorem Reordered.swap {name other : String} {children twins others partners : List PathNode}
    (hchildren : Reordered children twins) (hothers : Reordered others partners) :
    Reordered [⟨name, children⟩, ⟨other, others⟩] [⟨other, partners⟩, ⟨name, twins⟩] :=
  @Reordered.cons name children twins _ [⟨other, partners⟩] [] hchildren hothers.singleton

/-- Leaving trees out by their names leaves out the same ones. -/
theorem Reordered.filter {nodes twins : List PathNode} (hnodes : Reordered nodes twins)
    (keeps : String → Bool) :
    Reordered (nodes.filter fun node => keeps node.name)
      (twins.filter fun node => keeps node.name) := by
  induction hnodes with
  | nil => exact .nil
  | @cons name children twins rest front behind hchildren _ _ ih =>
    rw [List.filter_append] at ih
    rw [List.filter_append, List.filter_cons, List.filter_cons]
    cases keeps name with
    | true => exact .cons hchildren ih
    | false => exact ih

end PathNode

namespace MetadataNode

/-- The nodes on a way from a node down to a leaf, the node itself first and the leaf last. -/
inductive LineToLeaf : MetadataNode → List MetadataNode → Prop
  | leaf {node : MetadataNode} (hleaf : node.children = []) : LineToLeaf node [node]
  | through {node child : MetadataNode} {line : List MetadataNode} (hchild : child ∈ node.children)
      (hline : LineToLeaf child line) : LineToLeaf node (node :: line)

theorem LineToLeaf.mem_self {node : MetadataNode} {line : List MetadataNode}
    (hline : LineToLeaf node line) : node ∈ line := by
  cases hline with
  | leaf => exact List.mem_singleton_self node
  | through => exact List.mem_cons_self

/-- A node is required exactly when every line from it to a leaf meets a node that is declared as
required. -/
theorem Inferred.isRequired_iff {fields : List Field} {node : MetadataNode}
    (hinferred : Inferred fields node) :
    node.isRequired = true ↔
      ∀ line, LineToLeaf node line → ∃ met ∈ line, declaredRequired fields met = true := by
  induction hinferred with
  | @node node hflag _ ih =>
    cases hdeclared : declaredRequired fields node with
    | true =>
      rw [hdeclared, Bool.true_or] at hflag
      exact iff_of_true hflag fun line hline => ⟨node, hline.mem_self, hdeclared⟩
    | false =>
      rw [hdeclared, Bool.false_or] at hflag
      rw [hflag, Bool.and_eq_true, Bool.not_eq_true', List.all_eq_true]
      constructor
      · rintro ⟨hne, hall⟩ line hline
        cases hline with
        | leaf hleaf => simp [hleaf] at hne
        | @through _ child line hchild hline =>
          obtain ⟨met, hmet, hrequired⟩ := (ih child hchild).mp (hall child hchild) line hline
          exact ⟨met, List.mem_cons_of_mem node hmet, hrequired⟩
      · -- The node itself is not declared, so that a line meets a declared node below it or never.
        intro hcut
        constructor
        · cases hchildren : node.children with
          | nil =>
            obtain ⟨met, hmet, hrequired⟩ := hcut [node] (.leaf hchildren)
            rw [List.mem_singleton.mp hmet, hdeclared] at hrequired
            cases hrequired
          | cons child rest => rfl
        · refine fun child hchild => (ih child hchild).mpr fun line hline => ?_
          obtain ⟨met, hmet, hrequired⟩ := hcut (node :: line) (.through hchild hline)
          rcases List.mem_cons.mp hmet with rfl | hmet
          · rw [hdeclared] at hrequired
            cases hrequired
          · exact ⟨met, hmet, hrequired⟩

theorem inferred_of_mem_positions {trie : PathTrie} {fields : List Field} {helpers : List String}
    {maxDepth : Nat} {nodes : List MetadataNode}
    (hbuilt : model trie fields helpers maxDepth = .ok nodes) {position : Position}
    (hmem : position ∈ positions nodes) : Inferred fields position.node := by
  obtain ⟨top, htop, hmem⟩ := List.mem_flatMap.mp hmem
  refine forall_mem_positionsFrom (fun node hnode => ?_) (inferred_of_model hbuilt top htop) hmem
  cases hnode with
  | node _ hchildren => exact hchildren

/-- A line that no declared node stands on, down to a leaf without a field, makes a node optional. -/
theorem Inferred.isRequired_eq_false {fields : List Field} {node : MetadataNode}
    (hinferred : Inferred fields node) {line : List MetadataNode} (hline : LineToLeaf node line)
    (hleaf : ∀ leaf ∈ line.getLast?, Field.last? fields leaf.fieldName = none)
    (habove : ∀ met ∈ line.dropLast, declaredRequired fields met = false) :
    node.isRequired = false := by
  by_contra hrequired
  rw [Bool.not_eq_false, hinferred.isRequired_iff] at hrequired
  obtain ⟨met, hmet, hdeclared⟩ := hrequired line hline
  have hne : line ≠ [] := List.ne_nil_of_mem hmet
  rw [← List.dropLast_append_getLast hne] at hmet
  rcases List.mem_append.mp hmet with hmet | hmet
  · rw [habove met hmet] at hdeclared
    cases hdeclared
  · obtain rfl := List.mem_singleton.mp hmet
    rw [declaredRequired, hleaf _ (List.getLast?_eq_some_getLast hne)] at hdeclared
    cases hdeclared

/-- Every node of a model by the names that lead to it, with its flag. -/
def flags (nodes : List MetadataNode) : List (List String × Bool) :=
  (positions nodes).map fun position => (position.names, position.node.isRequired)

theorem flags_cons (node : MetadataNode) (rest : List MetadataNode) :
    flags (node :: rest) =
      ([node.name], node.isRequired) ::
        ((flags node.children).map (Prod.map (node.name :: ·) id) ++ flags rest) := by
  rw [flags, positions, List.flatMap_cons, positionsFrom_eq]
  simp [flags, positions, Position.names, Position.under, Function.comp_def]

theorem flags_perm {nodes others : List MetadataNode} (hnodes : nodes.Perm others) :
    (flags nodes).Perm (flags others) :=
  (hnodes.flatMap_right positionsFrom).map _

theorem children_decorated_perm (fields : List Field) (fieldName : String) (node : PathNode) :
    (decorated fields fieldName node).children.Perm
      (decoratedSiblings fields (fieldName ++ "." ++ ·) node.children) := by
  rw [children_decorated]
  exact sortSiblings_perm fields _

section Reordering

open PathNode

variable {fields others : List Field}
  (hsame : ∀ name, (Field.last? fields name).any (·.isRequired) =
    (Field.last? others name).any (·.isRequired))

include hsame

/-- Trees with one path have one flag if their children's flags agree up to the order. -/
theorem isRequired_decorated_eq {fieldName : String} {node twin : PathNode}
    (hflags : ((decorated fields fieldName node).children.map (·.isRequired)).Perm
      ((decorated others fieldName twin).children.map (·.isRequired))) :
    (decorated fields fieldName node).isRequired = (decorated others fieldName twin).isRequired := by
  have hempty := hflags.isEmpty_eq
  have hall := hflags.all_eq (f := id)
  rw [List.isEmpty_map, List.isEmpty_map] at hempty
  rw [List.all_map, List.all_map, Function.id_comp] at hall
  cases inferred_decorated fields fieldName node with
  | node hnode _ =>
    cases inferred_decorated others fieldName twin with
    | node htwin _ =>
      rw [hnode, htwin, declaredRequired, declaredRequired, fieldName_decorated, fieldName_decorated,
        hsame, hempty, hall]

/-- Trees whose siblings stand in another order are decorated with the same flags, by fields that require
the same names. -/
theorem flags_perm_of_reordered {nodes twins : List PathNode} (hnodes : Reordered nodes twins)
    (pathOf : String → String) :
    ((decoratedSiblings fields pathOf nodes).map (·.isRequired)).Perm
        ((decoratedSiblings others pathOf twins).map (·.isRequired)) ∧
      (flags (decoratedSiblings fields pathOf nodes)).Perm
        (flags (decoratedSiblings others pathOf twins)) := by
  induction hnodes generalizing pathOf with
  | nil => exact ⟨.refl _, .refl _⟩
  | @cons name children twins rest front behind _ _ ihchildren ihrest =>
    obtain ⟨hchildren, hbelow⟩ := ihchildren (pathOf name ++ "." ++ ·)
    obtain ⟨hrest, hbeside⟩ := ihrest pathOf
    have hnode := children_decorated_perm fields (pathOf name) ⟨name, children⟩
    have htwin := children_decorated_perm others (pathOf name) ⟨name, twins⟩
    have hrequired := isRequired_decorated_eq hsame
      ((hnode.map _).trans (hchildren.trans (htwin.map _).symm))
    have hinside := (flags_perm hnode).trans (hbelow.trans (flags_perm htwin).symm)
    -- The twin is brought to the front, where both listings begin with the same node.
    have hfront : (decoratedSiblings others pathOf (front ++ ⟨name, twins⟩ :: behind)).Perm
        (decorated others (pathOf name) ⟨name, twins⟩ ::
          decoratedSiblings others pathOf (front ++ behind)) :=
      List.perm_middle.map _
    constructor
    · refine List.Perm.trans ?_ (hfront.map _).symm
      rw [decoratedSiblings, List.map_cons, List.map_cons, List.map_cons, hrequired]
      exact hrest.cons _
    · refine List.Perm.trans ?_ (flags_perm hfront).symm
      rw [decoratedSiblings, List.map_cons, flags_cons, flags_cons, hrequired, name_decorated,
        name_decorated]
      exact ((hinside.map _).append hbeside).cons _

end Reordering

/-- A node is required exactly when every line of nodes from it down to a leaf, the node included, meets
a node whose last field requires it. So a leaf without a field makes the nodes above it optional, up to
a node that is declared as required; and a trie with its siblings in another order, decorated by fields
that require the same names, has the same flags. -/
theorem isRequired_iff_every_line_declared {trie : PathTrie} {fields : List Field}
    {helpers : List String} {maxDepth : Nat} {nodes : List MetadataNode}
    (hbuilt : model trie fields helpers maxDepth = .ok nodes) :
    (∀ position ∈ positions nodes,
      (position.node.isRequired = true ↔
        ∀ line, LineToLeaf position.node line →
          ∃ met ∈ line, (Field.last? fields met.fieldName).any (·.isRequired) = true) ∧
      ∀ line, LineToLeaf position.node line →
        (∀ leaf ∈ line.getLast?, Field.last? fields leaf.fieldName = none) →
          (∀ met ∈ line.dropLast, (Field.last? fields met.fieldName).any (·.isRequired) = false) →
            position.node.isRequired = false) ∧
    ∀ other others otherDepth otherNodes, PathNode.Reordered trie.branches other.branches →
      (∀ name, (Field.last? fields name).any (·.isRequired) =
        (Field.last? others name).any (·.isRequired)) →
      model other others helpers otherDepth = .ok otherNodes →
        (flags nodes).Perm (flags otherNodes) := by
  constructor
  · intro position hmem
    have hinferred := inferred_of_mem_positions hbuilt hmem
    exact ⟨hinferred.isRequired_iff, fun _ => hinferred.isRequired_eq_false⟩
  · intro other others otherDepth otherNodes hreordered hsame hother
    rw [eq_decoratedForest_of_model hbuilt, eq_decoratedForest_of_model hother]
    have hkept := hreordered.filter fun name => !helpers.contains name
    have hflags := (flags_perm_of_reordered hsame hkept id).2
    exact (flags_perm (sortSiblings_perm fields _)).trans
      (hflags.trans (flags_perm (sortSiblings_perm others _)).symm)

/-- A guest with two names, and a host with one. -/
def visitTrie : PathTrie :=
  ⟨[⟨"guest", [⟨"name", []⟩, ⟨"age", []⟩]⟩, ⟨"host", [⟨"name", []⟩]⟩]⟩

/-- Fields that require both names of a guest, and a group that is required whatever is in it. -/
def visitFields : List Field :=
  [{ Field.bare "guest.age" with isRequired := true, order := some 1 },
    { Field.bare "host" with isRequired := true },
    { Field.bare "guest.name" with isRequired := true }]

/-- The guest is required because of both names, the host as declared, and the host's name is not. The
order of siblings has no part in that. -/
theorem isRequired_iff_every_line_declared_visit :
    ∃ other nodes otherNodes,
      PathNode.Reordered visitTrie.branches other.branches ∧
      model visitTrie visitFields [] 2 = .ok nodes ∧ model other visitFields [] 2 = .ok otherNodes ∧
      flags nodes = [(["guest"], true), (["guest", "age"], true), (["guest", "name"], true),
        (["host"], true), (["host", "name"], false)] ∧
      (flags nodes).Perm (flags otherNodes) ∧
      ∀ position ∈ positions nodes, (position.node.isRequired = true ↔
        ∀ line, LineToLeaf position.node line →
          ∃ met ∈ line, (Field.last? visitFields met.fieldName).any (·.isRequired) = true) := by
  have hreordered : PathNode.Reordered visitTrie.branches
      [⟨"host", [⟨"name", []⟩]⟩, ⟨"guest", [⟨"age", []⟩, ⟨"name", []⟩]⟩] :=
    .swap (.swap .nil .nil) (.singleton .nil)
  obtain ⟨hflags, horder⟩ := @isRequired_iff_every_line_declared visitTrie visitFields [] 2 _ rfl
  refine ⟨⟨_⟩, _, _, hreordered, rfl, rfl, ?_, ?_, ?_⟩
  · decide +kernel
  · exact horder _ _ 2 _ hreordered (fun _ => rfl) rfl
  · exact fun position hmem => (hflags position hmem).1

end MetadataNode

end DocModel
