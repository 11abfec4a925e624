import DocModel.Proofs.HelperModule.Union
import DocModel.Proofs.Metadata.Rank

/-!
Models with more helpers. More names among the helpers take exactly the top nodes with those names out
of a model, since leaving branches out before they are decorated and sorted is the same as leaving
their nodes out afterwards.
-/

namespace DocModel.MetadataNode

theorem filter_sortSiblings (fields : List Field) (keeps : MetadataNode → Bool)
    (nodes : List MetadataNode) :
    (sortSiblings fields nodes).filter keeps = sortSiblings fields (nodes.filter keeps) :=
  (isSortOrder_precedes fields).filter_stableSort keeps nodes

/-- The nodes that are not named like one of some helpers. -/
def unnamed (helpers : List String) (nodes : List MetadataNode) : List MetadataNode :=
  nodes.filter fun node => !helpers.contains node.name

theorem map_name_unnamed (helpers : List String) (nodes : List MetadataNode) :
    (unnamed helpers nodes).map (·.name) =
      (nodes.map (·.name)).filter fun name => !helpers.contains name := by
  rw [List.filter_map]
  rfl

theorem unnamed_decoratedForest (fields : List Field) (helpers : List String)
    (branches : List PathNode) :
    unnamed helpers (decoratedForest fields branches) =
      decoratedForest fields (branches.filter fun branch => !helpers.contains branch.name) := by
  rw [unnamed, decoratedForest, filter_sortSiblings, List.filter_map, decoratedForest]
  congr 2
  exact List.filter_congr fun branch _ => by simp

theorem keptBranches_append (trie : PathTrie) (helpers more : List String) :
    keptBranches trie (helpers ++ more).eraseDups =
      (keptBranches trie helpers).filter fun branch => !more.contains branch.name := by
  rw [keptBranches, keptBranches, List.filter_filter]
  refine List.filter_congr fun branch _ => ?_
  rw [Bool.eq_iff_iff]
  simp only [Bool.not_eq_true', Bool.and_eq_true, List.contains_eq_mem, decide_eq_false_iff_not,
    List.mem_eraseDups, List.mem_append, not_or, and_comm]

/-- With more helpers exactly the nodes that are named like them leave a model. -/
theorem model_append {trie : PathTrie} {fields : List Field} {helpers : List String}
    {maxDepth : Nat} {nodes : List MetadataNode}
    (hbuilt : model trie fields helpers maxDepth = .ok nodes) (more : List String) :
    model trie fields (helpers ++ more).eraseDups maxDepth = .ok (unnamed more nodes) := by
  rw [model_eq] at hbuilt ⊢
  split at hbuilt
  · next hfits =>
    cases hbuilt
    rw [keptBranches_append, unnamed_decoratedForest, if_pos]
    exact fun branch hbranch => hfits branch (List.mem_of_mem_filter hbranch)
  · cases hbuilt

end DocModel.MetadataNode
