import DocModel.Proofs.Metadata.Coverage
import DocModel.Proofs.Trie.Insertion

/-!
The node of a model at a path. Decoration and sorting keep the names of siblings, and these are all
different; so a path leads in the model to what it leads to in the trie, unless it begins with the name of
a helper.
-/

namespace DocModel

namespace PathNode

/-- Leaving siblings out by their names hides exactly these names. -/
theorem named?_filter (keep : String → Bool) (nodes : List PathNode) (name : String) :
    named? (nodes.filter fun node => keep node.name) name =
      if keep name then named? nodes name else none := by
  rw [named?, List.find?_filter]
  split
  · next hkeep =>
    refine congrArg (fun p => List.find? p nodes) (funext fun node => ?_)
    by_cases hname : node.name = name
    · simp [hname, hkeep]
    · simp [hname]
  · next hkeep =>
    refine List.find?_eq_none.mpr fun node _ => ?_
    by_cases hname : node.name = name
    · simp [hname, hkeep]
    · simp [hname]

theorem find?_filter (keep : String → Bool) (nodes : List PathNode) (name : String)
    (rest : List String) :
    find? (nodes.filter fun node => keep node.name) (name :: rest) =
      if keep name then find? nodes (name :: rest) else none := by
  cases rest with
  | nil => exact named?_filter keep nodes name
  | cons next rest =>
    rw [find?, find?, named?_filter]
    · split <;> rfl
    · exact List.cons_ne_nil next rest
    · exact List.cons_ne_nil next rest

end PathNode

namespace MetadataNode

open PathNode

section Siblings

variable (fields : List Field) {siblings : List PathNode}

theorem named?_sortSiblings (hnames : (siblings.map (·.name)).Nodup) (pathOf : PathNode → String)
    (name : String) :
    named? (sortSiblings fields (siblings.map fun node => decorated fields (pathOf node) node)) name =
      (PathNode.named? siblings name).map fun node => decorated fields (pathOf node) node := by
  have hsame : (siblings.map fun node => decorated fields (pathOf node) node).map (·.name) =
      siblings.map (·.name) := by
    simp [Function.comp_def]
  rw [named?, ← find?_key_eq_of_perm (sortSiblings_perm fields _).symm (hsame ▸ hnames),
    List.find?_map]
  simp only [Function.comp_def, name_decorated, PathNode.named?]

/-- Below the names that lead to some siblings, further names lead to the node of the trie node to which
they lead, at the path of all of them. -/
theorem findSegments?_sortSiblings (hdistinct : Distinct siblings) (above names : List String) :
    findSegments? (sortSiblings fields (siblings.map fun node =>
        decorated fields (Path.ofSegments (above ++ [node.name])) node)) names =
      (PathNode.find? siblings names).map (decorated fields (Path.ofSegments (above ++ names))) := by
  induction names generalizing above siblings with
  | nil => rfl
  | cons name rest ih =>
    have hnamed := named?_sortSiblings fields hdistinct.names_nodup
      (fun node => Path.ofSegments (above ++ [node.name])) name
    cases rest with
    | nil =>
      rw [findSegments?, PathNode.find?, hnamed]
      cases hfound : PathNode.named? siblings name with
      | none => rfl
      | some node =>
        obtain ⟨_, rfl⟩ := named?_eq_some hfound
        rfl
    | cons next rest =>
      rw [findSegments?, PathNode.find?, hnamed]
      · cases hfound : PathNode.named? siblings name with
        | none => rfl
        | some node =>
          obtain ⟨hmem, rfl⟩ := named?_eq_some hfound
          have hbelow := ih (hdistinct.children hmem) (above ++ [node.name])
          have hpath (child : PathNode) :
              Path.ofSegments (above ++ [node.name]) ++ "." ++ child.name =
                Path.ofSegments (above ++ [node.name] ++ [child.name]) :=
            (Path.ofSegments_append_singleton (by simp) child.name).symm
          simp only [Option.map_some, Option.bind_some, children_decorated, hpath, hbelow]
          rw [List.append_assoc, List.singleton_append]
      · exact List.cons_ne_nil next rest
      · exact List.cons_ne_nil next rest

end Siblings

/-- A path that does not begin with the name of a helper leads to the decorated form of the trie node to
which it leads in the trie, and any other path leads nowhere. -/
theorem find?_decoratedForest {trie : PathTrie} (hdistinct : Distinct trie.branches)
    (fields : List Field) (helpers : List String) (path : String) :
    find? (decoratedForest fields (keptBranches trie helpers)) path =
      if Path.head path ∈ helpers then none else (trie.find? path).map (decorated fields path) := by
  have hforest := findSegments?_sortSiblings fields
    (hdistinct.filter fun branch => !helpers.contains branch.name) [] (Path.segments path)
  simp only [List.nil_append, Path.ofSegments_singleton, Path.ofSegments_segments] at hforest
  rw [find?, decoratedForest, keptBranches, hforest, PathTrie.find?]
  obtain ⟨rest, hsegments⟩ := Path.exists_segments_eq_cons path
  rw [hsegments, find?_filter fun name => !helpers.contains name]
  by_cases hhead : Path.head path ∈ helpers <;> simp [hhead]

theorem names_children_decorated_perm (fields : List Field) (fieldName : String) (node : PathNode) :
    ((decorated fields fieldName node).children.map (·.name)).Perm
      (node.children.map (·.name)) := by
  have hperm := (sortSiblings_perm fields (node.children.map fun child =>
    decorated fields (fieldName ++ "." ++ child.name) child)).map (·.name)
  rw [children_decorated]
  simpa [Function.comp_def] using hperm

/-- A path leads to a node of a model exactly if it leads to a node of the trie and does not begin with the
name of a helper. The node has this path, and its children are named like those of the trie node, up to
their order. The depth bounds play no part in it, not even one that is beyond the limit on steps. -/
theorem find?_iff_find?_trie {paths : List String} {trieDepth maxDepth : Nat} {trie : PathTrie}
    {fields : List Field} {helpers : List String} {nodes : List MetadataNode}
    (htrie : PathTrie.ofPaths paths trieDepth = .ok trie)
    (hbuilt : model trie fields helpers maxDepth = .ok nodes) (path : String) :
    ((find? nodes path).isSome = true ↔
      (trie.find? path).isSome = true ∧ Path.head path ∉ helpers) ∧
    ∀ node, find? nodes path = some node → node.fieldName = path ∧
      ∃ inner, trie.find? path = some inner ∧
        (node.children.map (·.name)).Perm (inner.children.map (·.name)) := by
  have hgrown : trie.IsGrown := ⟨paths, trieDepth, trie, htrie, [], rfl⟩
  obtain rfl := eq_decoratedForest_of_model hbuilt
  rw [find?_decoratedForest hgrown.distinct]
  by_cases hhead : Path.head path ∈ helpers
  · simp [hhead]
  · rw [if_neg hhead, Option.isSome_map]
    refine ⟨(and_iff_left hhead).symm, fun node hnode => ?_⟩
    obtain ⟨inner, hinner, rfl⟩ := Option.map_eq_some_iff.mp hnode
    exact ⟨fieldName_decorated _ _ _, inner, hinner, names_children_decorated_perm fields path inner⟩

/-- The children of a group stand in the order of their fields and not in that of the trie. A path that
begins with the name of a helper leads to a node of the trie only, and one that goes on behind the last
segment of a path to none at all. -/
theorem find?_iff_find?_trie_guest :
    ∃ trie nodes guest, PathTrie.ofPaths guestPaths 3 = .ok trie ∧
      model trie ageFields ["put"] 3 = .ok nodes ∧ find? nodes "guest" = some guest ∧
      guest.fieldName = "guest" ∧ guest.children.map (·.name) = ["age", "name"] ∧
      (guest.children.map (·.name)).Perm ["name", "age"] ∧
      (trie.find? "put.code").isSome = true ∧ (find? nodes "put.code").isSome = false ∧
      (find? nodes "guest.name.first").isSome = true ∧ (find? nodes "guest.").isSome = false := by
  have hagree (path : String) := find?_iff_find?_trie
    (show PathTrie.ofPaths guestPaths 3 = .ok _ from rfl)
    (show model _ ageFields ["put"] 3 = .ok _ from rfl) path
  obtain ⟨hpath, inner, hinner, hchildren⟩ := (hagree "guest").2 _ rfl
  cases hinner
  refine ⟨_, _, _, rfl, rfl, rfl, hpath, rfl, hchildren, rfl, ?_, (hagree _).1.mpr (by decide), ?_⟩
  · rw [← Bool.not_eq_true, (hagree "put.code").1]
    decide
  · rw [← Bool.not_eq_true, (hagree "guest.").1]
    decide

end MetadataNode

end DocModel
