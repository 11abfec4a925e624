import DocModel.Proofs.Metadata.Rank
import DocModel.Proofs.Trie.Listing
import Mathlib.Data.List.Perm.Basic

/-!
Models do not depend on the order of the paths, nor on how often a path is given. The siblings of a
trie change places with the paths, but decoration sorts them by the fields, and the fields tell them
apart as long as no two siblings go without one.
-/

namespace DocModel.MetadataNode

open PathNode

/-- Under the node that a chain of names leads to, and under every node below it, at most one child has a
path without a field. -/
def AtMostOneUndeclared (fields : List Field) (chain : List String) (node : PathNode) : Prop :=
  ∀ leading found, node.follow? leading = some found →
    ∀ child ∈ found.children, ∀ other ∈ found.children,
      Path.ofSegments (chain ++ leading ++ [child.name]) ∉ fields.map (·.name) →
        Path.ofSegments (chain ++ leading ++ [other.name]) ∉ fields.map (·.name) →
          child.name = other.name

theorem AtMostOneUndeclared.child {fields : List Field} {chain : List String} {node : PathNode}
    (hfew : AtMostOneUndeclared fields chain node) {child : PathNode}
    (hchild : PathNode.named? node.children child.name = some child) :
    AtMostOneUndeclared fields (chain ++ [child.name]) child := by
  intro leading found hfound
  have hfollow : node.follow? (child.name :: leading) = some found := by
    rw [follow?, hchild, Option.bind_some, hfound]
  simpa using hfew (child.name :: leading) found hfollow

section Siblings

variable {fields : List Field} {pathOf : String → String}

/-- The decorated siblings of some trie nodes, before they are sorted. -/
def decoratedSiblings (fields : List Field) (pathOf : String → String) (nodes : List PathNode) :
    List MetadataNode :=
  nodes.map fun node => decorated fields (pathOf node.name) node

theorem mem_decoratedSiblings {nodes : List PathNode} {node : MetadataNode} :
    node ∈ decoratedSiblings fields pathOf nodes ↔
      ∃ inner ∈ nodes, decorated fields (pathOf inner.name) inner = node :=
  List.mem_map

theorem nodup_decoratedSiblings {nodes : List PathNode} (hnodes : (nodes.map (·.name)).Nodup) :
    (decoratedSiblings fields pathOf nodes).Nodup := by
  have hnames : (decoratedSiblings fields pathOf nodes).map (·.name) = nodes.map (·.name) := by
    simp [decoratedSiblings, Function.comp_def]
  rw [← hnames] at hnodes
  exact hnodes.of_map _

/-- Siblings with the same names, of which those with one name are decorated alike, are the same when
they are sorted: their ranks tell them apart. -/
theorem sortSiblings_eq_of_same_names (hplaces : Field.HavePlaces fields)
    (pathOf : String → String) (hinjective : Function.Injective pathOf) {nodes others : List PathNode}
    (hnodes : (nodes.map (·.name)).Nodup) (hothers : (others.map (·.name)).Nodup)
    (hsame : ∀ name, name ∈ nodes.map (·.name) ↔ name ∈ others.map (·.name))
    (halike : ∀ node ∈ nodes, ∀ other ∈ others, node.name = other.name →
      decorated fields (pathOf node.name) node = decorated fields (pathOf other.name) other)
    (hfew : ∀ node ∈ nodes, ∀ other ∈ nodes, pathOf node.name ∉ fields.map (·.name) →
      pathOf other.name ∉ fields.map (·.name) → node.name = other.name) :
    sortSiblings fields (decoratedSiblings fields pathOf nodes) =
      sortSiblings fields (decoratedSiblings fields pathOf others) := by
  have hperm : (decoratedSiblings fields pathOf nodes).Perm
      (decoratedSiblings fields pathOf others) := by
    rw [List.perm_ext_iff_of_nodup (nodup_decoratedSiblings hnodes)
      (nodup_decoratedSiblings hothers)]
    intro sibling
    rw [mem_decoratedSiblings, mem_decoratedSiblings]
    constructor
    · rintro ⟨node, hnode, rfl⟩
      obtain ⟨other, hother, hname⟩ := List.mem_map.mp ((hsame _).mp (List.mem_map_of_mem hnode))
      exact ⟨other, hother, (halike node hnode other hother hname.symm).symm⟩
    · rintro ⟨other, hother, rfl⟩
      obtain ⟨node, hnode, hname⟩ := List.mem_map.mp ((hsame _).mpr (List.mem_map_of_mem hother))
      exact ⟨node, hnode, halike node hnode other hother hname⟩
  refine (isSortOrder_precedes fields).stableSort_eq_of_perm hperm fun a ha b hb hab hba => ?_
  obtain ⟨node, hnode, rfl⟩ := mem_decoratedSiblings.mp ha
  obtain ⟨other, hother, rfl⟩ := mem_decoratedSiblings.mp hb
  have hname : node.name = other.name := by
    have hrank := fieldName_eq_of_rank_eq hplaces (rank_eq_of_precedes hab hba)
    rw [fieldName_decorated, fieldName_decorated] at hrank
    rcases hrank with hpath | ⟨hnode', hother'⟩
    · exact hinjective hpath
    · exact hfew node hnode other hother hnode' hother'
  rw [List.inj_on_of_nodup_map hnodes hnode hother hname]

end Siblings

/-- Nodes that one chain leads to, and below which the same chains are spelled in any order, are
decorated alike. -/
theorem decorated_eq_of_same_chains {fields : List Field} (hplaces : Field.HavePlaces fields)
    {node other : PathNode} {chain : List String} {chains others : List (List String)}
    (hne : chain ≠ []) (hnode : Spells node.children chains) (hother : Spells other.children others)
    (hsame : ∀ chain, chain ∈ chains ↔ chain ∈ others) (hname : node.name = other.name)
    (hfew : AtMostOneUndeclared fields chain node) :
    decorated fields (Path.ofSegments chain) node =
      decorated fields (Path.ofSegments chain) other := by
  induction node using PathNode.induction_on_children generalizing other chain chains others with
  | step node ih =>
    have hpath (name : String) :
        Path.ofSegments chain ++ "." ++ name = Path.ofSegments (chain ++ [name]) :=
      (Path.ofSegments_append_singleton hne name).symm
    have hchildren := sortSiblings_eq_of_same_names hplaces
      (fun name => Path.ofSegments chain ++ "." ++ name)
      (fun _ _ => (String.append_right_inj _).mp) hnode.names_nodup hother.names_nodup
      (fun name => by simp only [hnode.mem_names, hother.mem_names, hsame])
      (fun child hchild twin htwin hnames => by
        have hbelow := hother.children htwin
        rw [← hnames] at hbelow
        have hfound := named?_eq_some_of_mem hnode.names_nodup hchild
        simp only [hpath, ← hnames]
        exact ih child hchild (by simp) (hnode.children hchild) hbelow
          (fun rest => by simp only [mem_filterMap_dropPrefix?, hsame]) hnames (hfew.child hfound))
      (fun child hchild twin htwin => by
        simpa [hpath] using hfew [] node rfl child hchild twin htwin)
    rw [decorated, decorated, hname]
    exact congrArg _ hchildren

section Model

variable {directives : List Directive} {fields : List Field} {options : List FieldOption}
  {paths others : List String} {trie otherTrie : PathTrie} {maxDepth : Nat}

theorem map_name_keptBranches (trie : PathTrie) (helpers : List String) :
    (keptBranches trie helpers).map (·.name) =
      (trie.branches.map (·.name)).filter fun name => !helpers.contains name := by
  rw [List.filter_map]
  rfl

theorem decoratedForest_eq_of_same_paths (hplaces : Field.HavePlaces fields)
    (hlimit : maxDepth ≤ PathTrie.maxGraftSteps) (hsame : ∀ path, path ∈ paths ↔ path ∈ others)
    (htrie : PathTrie.ofPaths paths maxDepth = .ok trie)
    (hother : PathTrie.ofPaths others maxDepth = .ok otherTrie)
    (hfew : AtMostOneUndeclared fields [] trie.root) (helpers : List String) :
    decoratedForest fields (keptBranches trie helpers) =
      decoratedForest fields (keptBranches otherTrie helpers) := by
  have hspells := PathTrie.spells_of_ofPaths hlimit htrie
  have hspells' := PathTrie.spells_of_ofPaths hlimit hother
  have hchains : ∀ chain, chain ∈ paths.map Path.segments ↔ chain ∈ others.map Path.segments := by
    simp [hsame]
  have hpath (name : String) : Path.ofSegments [name] = name := Path.ofSegments_singleton name
  refine sortSiblings_eq_of_same_names hplaces (fun name => name) (fun _ _ h => h) ?_ ?_
    (fun name => ?_) (fun branch hbranch twin htwin hnames => ?_)
    (fun branch hbranch twin htwin => ?_)
  · rw [map_name_keptBranches]
    exact hspells.names_nodup.filter _
  · rw [map_name_keptBranches]
    exact hspells'.names_nodup.filter _
  · simp only [map_name_keptBranches, List.mem_filter, hspells.mem_names, hspells'.mem_names,
      hchains]
  · obtain ⟨hbranch, _⟩ := List.mem_filter.mp hbranch
    obtain ⟨htwin, _⟩ := List.mem_filter.mp htwin
    have hbelow := hspells'.children htwin
    rw [← hnames] at hbelow ⊢
    have hbranchFew : AtMostOneUndeclared fields [branch.name] branch :=
      hfew.child (named?_eq_some_of_mem hspells.names_nodup hbranch)
    have halike := decorated_eq_of_same_chains hplaces (List.cons_ne_nil _ _)
      (hspells.children hbranch) hbelow (fun rest => by simp only [mem_filterMap_dropPrefix?, hchains])
      hnames hbranchFew
    rwa [hpath] at halike
  · have hroot := hfew [] trie.root rfl branch (List.mem_of_mem_filter hbranch) twin
      (List.mem_of_mem_filter htwin)
    simpa [hpath] using hroot

/-- Two lists of the same paths have one model, with one order of siblings at every level, if the fields
have been compiled and under every node of the trie at most one child has a path without a field. -/
theorem model_eq_of_same_paths (hfields : Field.compileAll directives = .ok (fields, options))
    (hlimit : maxDepth ≤ PathTrie.maxGraftSteps) (hsame : ∀ path, path ∈ paths ↔ path ∈ others)
    (htrie : PathTrie.ofPaths paths maxDepth = .ok trie)
    (hother : PathTrie.ofPaths others maxDepth = .ok otherTrie)
    (hfew : AtMostOneUndeclared fields [] trie.root) (helpers : List String) :
    ∃ nodes, model trie fields helpers maxDepth = .ok nodes ∧
      model otherTrie fields helpers maxDepth = .ok nodes := by
  obtain ⟨nodes, hnodes⟩ := exists_model_of_ofPaths htrie fields helpers
  obtain ⟨otherNodes, hotherNodes⟩ := exists_model_of_ofPaths hother fields helpers
  have hforest := decoratedForest_eq_of_same_paths (Field.havePlaces_of_compileAll hfields) hlimit
    hsame htrie hother hfew helpers
  have hequal : otherNodes = nodes := by
    rw [eq_decoratedForest_of_model hnodes, eq_decoratedForest_of_model hotherNodes, hforest]
  exact ⟨nodes, hnodes, hequal ▸ hotherNodes⟩

end Model

/-- A field with a late order, one with none, and one for a group. -/
def stayDirectives : List Directive :=
  [⟨"field", [.positional "guest.age", .named "order" "2"]⟩, ⟨"field", [.positional "room"]⟩,
    ⟨"group", [.positional "guest"]⟩]

/-- All names but `guest.name` have fields. -/
theorem atMostOneUndeclared_stay {fields : List Field} {trie : PathTrie}
    (hnames : fields.map (·.name) = ["guest.age", "room", "guest"])
    (htrie : PathTrie.ofPaths ["guest.name", "room", "guest.age"] 2 = .ok trie) :
    AtMostOneUndeclared fields [] trie.root := by
  have hcase (leading : List String) (found : PathNode) (child : PathNode)
      (hfound : trie.root.follow? leading = some found) (hchild : child ∈ found.children)
      (hundeclared : Path.ofSegments ([] ++ leading ++ [child.name]) ∉ fields.map (·.name)) :
      child.name = "name" := by
    have hnext : child.name ∈ Path.nextSegments leading ["guest.name", "room", "guest.age"] := by
      rw [← PathTrie.map_name_children_of_follow? (by decide) htrie hfound]
      exact List.mem_map_of_mem hchild
    obtain ⟨path, hpath, hprefix⟩ := Path.mem_nextSegments.mp hnext
    have hleading := Path.mem_leading.mpr ⟨by simp, hprefix⟩
    have hall : ∀ path ∈ ["guest.name", "room", "guest.age"],
        ∀ chain ∈ Path.leading (Path.segments path),
          Path.ofSegments chain ∉ ["guest.age", "room", "guest"] → chain.getLast? = some "name" := by
      decide
    rw [hnames] at hundeclared
    simpa using hall path hpath _ hleading hundeclared
  intro leading found hfound child hchild other hother hundeclared hundeclared'
  rw [hcase leading found child hfound hchild hundeclared,
    hcase leading found other hfound hother hundeclared']

theorem model_eq_of_same_paths_stay :
    ∃ fields options trie other nodes,
      Field.compileAll stayDirectives = .ok (fields, options) ∧ 2 ≤ PathTrie.maxGraftSteps ∧
      (∀ path, path ∈ ["guest.name", "room", "guest.age"] ↔
        path ∈ ["room", "guest.age", "room", "guest.name"]) ∧
      PathTrie.ofPaths ["guest.name", "room", "guest.age"] 2 = .ok trie ∧
      PathTrie.ofPaths ["room", "guest.age", "room", "guest.name"] 2 = .ok other ∧
      AtMostOneUndeclared fields [] trie.root ∧
      trie.branches.map (·.name) = ["guest", "room"] ∧
      other.branches.map (·.name) = ["room", "guest"] ∧
      model trie fields ["put"] 2 = .ok nodes ∧ model other fields ["put"] 2 = .ok nodes := by
  have hfields : (Field.compileAll stayDirectives).toOption.map (fun parts =>
      parts.1.map (·.name)) = some ["guest.age", "room", "guest"] := by
    decide +kernel
  obtain ⟨⟨fields, options⟩, hcompiled, hnames⟩ := Option.map_eq_some_iff.mp hfields
  have hcompiled := eq_ok_of_toOption_eq_some hcompiled
  have hsame : ∀ path, path ∈ ["guest.name", "room", "guest.age"] ↔
      path ∈ ["room", "guest.age", "room", "guest.name"] := by
    intro path
    simp only [List.mem_cons, List.not_mem_nil, or_false]
    tauto
  have hlimit : 2 ≤ PathTrie.maxGraftSteps := by decide
  have hfew := atMostOneUndeclared_stay hnames rfl
  obtain ⟨nodes, hnodes, hotherNodes⟩ :=
    model_eq_of_same_paths hcompiled hlimit hsame rfl rfl hfew ["put"]
  exact ⟨fields, options, _, _, nodes, hcompiled, hlimit, hsame, rfl, rfl, hfew, rfl, rfl, hnodes,
    hotherNodes⟩

end DocModel.MetadataNode
