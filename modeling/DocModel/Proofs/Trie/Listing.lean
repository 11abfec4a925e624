import DocModel.Proofs.Distinct
import DocModel.Proofs.Trie.Chains

/-!
The order in a path trie. The children of a node are the segments that come next in some path, each once
and in the order of the paths; a node is found exactly where some path leads through it.
-/

namespace DocModel

theorem dropPrefix?_cons {α : Type} [BEq α] (name : α) (leading chain : List α) :
    chain.dropPrefix? (name :: leading) =
      (chain.dropPrefix? [name]).bind fun rest => rest.dropPrefix? leading := by
  cases chain with
  | nil => rfl
  | cons first rest =>
    rw [List.dropPrefix?, List.dropPrefix?]
    split <;> simp

theorem dropPrefix?_isSome_iff {α : Type} [BEq α] [LawfulBEq α] {leading chain : List α} :
    (chain.dropPrefix? leading).isSome = true ↔ leading <+: chain := by
  rw [Option.isSome_iff_exists]
  simp only [List.dropPrefix?_eq_some_iff, beq_iff_eq]
  exact exists_congr fun rest => ⟨fun ⟨_, hchain, heq⟩ => heq ▸ hchain.symm,
    fun hchain => ⟨leading, hchain.symm, rfl⟩⟩

namespace Path

/-- The segment of a path behind some leading ones, if the path begins with these and goes on. -/
def nextSegment? (leading : List String) (path : String) : Option String :=
  ((segments path).dropPrefix? leading).bind List.head?

theorem nextSegment?_eq_some_iff {leading : List String} {path segment : String} :
    nextSegment? leading path = some segment ↔ leading ++ [segment] <+: segments path := by
  rw [nextSegment?, Option.bind_eq_some_iff]
  simp only [List.dropPrefix?_eq_some_iff, beq_iff_eq]
  constructor
  · rintro ⟨rest, ⟨_, hpath, rfl⟩, hhead⟩
    obtain ⟨more, rfl⟩ := List.head?_eq_some_iff.mp hhead
    exact ⟨more, by rw [hpath, List.append_assoc, List.singleton_append]⟩
  · rintro ⟨more, hpath⟩
    refine ⟨segment :: more, ⟨leading, ?_, rfl⟩, rfl⟩
    rw [← hpath, List.append_assoc, List.singleton_append]

/-- The segments behind some leading ones in some paths, each where it comes first. -/
def nextSegments (leading : List String) (paths : List String) : List String :=
  (paths.filterMap (nextSegment? leading)).eraseDups

theorem mem_nextSegments {leading paths : List String} {segment : String} :
    segment ∈ nextSegments leading paths ↔
      ∃ path ∈ paths, leading ++ [segment] <+: segments path := by
  simp only [nextSegments, List.mem_eraseDups, List.mem_filterMap, nextSegment?_eq_some_iff]

end Path

namespace PathNode

/-- The node that some names lead to from a node. -/
def follow? : PathNode → List String → Option PathNode
  | node, [] => some node
  | node, name :: rest => (named? node.children name).bind fun child => child.follow? rest

theorem find?_eq_follow? (above : String) {nodes : List PathNode} {names : List String}
    (hne : names ≠ []) : find? nodes names = (⟨above, nodes⟩ : PathNode).follow? names := by
  induction names generalizing above nodes with
  | nil => exact absurd rfl hne
  | cons name rest ih =>
    cases rest with
    | nil => simp [find?, follow?]
    | cons next rest =>
      rw [find?, follow?]
      · congr 1
        funext child
        exact ih child.name (List.cons_ne_nil next rest)
      · nofun

/-- Siblings spell some chains when they are the first names of these, each where it comes first, and
when below each of them the rests of the chains with its name are spelled. -/
inductive Spells : List PathNode → List (List String) → Prop where
  | intro {nodes : List PathNode} {chains : List (List String)}
      (hnames : nodes.map (·.name) = (chains.filterMap List.head?).eraseDups)
      (hchildren : ∀ node ∈ nodes,
        Spells node.children (chains.filterMap fun chain => chain.dropPrefix? [node.name])) :
      Spells nodes chains

section Spells

variable {nodes : List PathNode} {chains : List (List String)}

theorem Spells.names_eq (hspells : Spells nodes chains) :
    nodes.map (·.name) = (chains.filterMap List.head?).eraseDups := by
  cases hspells
  assumption

theorem Spells.children (hspells : Spells nodes chains) {node : PathNode} (hnode : node ∈ nodes) :
    Spells node.children (chains.filterMap fun chain => chain.dropPrefix? [node.name]) := by
  cases hspells with
  | intro _ hchildren => exact hchildren node hnode

theorem Spells.mem_names (hspells : Spells nodes chains) {name : String} :
    name ∈ nodes.map (·.name) ↔ ∃ chain ∈ chains, [name] <+: chain := by
  rw [hspells.names_eq, List.mem_eraseDups, List.mem_filterMap]
  refine exists_congr fun chain => and_congr Iff.rfl ?_
  rw [List.head?_eq_some_iff]
  exact exists_congr fun rest => eq_comm

theorem Spells.names_nodup (hspells : Spells nodes chains) : (nodes.map (·.name)).Nodup := by
  rw [hspells.names_eq]
  exact nodup_eraseDups _

theorem spells_nil : Spells [] [] := .intro rfl nofun

theorem mem_filterMap_dropPrefix? {name : String} {rest : List String} :
    rest ∈ chains.filterMap (fun chain => chain.dropPrefix? [name]) ↔ name :: rest ∈ chains := by
  simp [List.mem_filterMap, List.dropPrefix?_eq_some_iff]

theorem named?_eq_some {name : String} {node : PathNode} (hnamed : named? nodes name = some node) :
    node ∈ nodes ∧ node.name = name :=
  of_find?_key_eq_some hnamed

theorem named?_isSome_iff {name : String} :
    (named? nodes name).isSome = true ↔ name ∈ nodes.map (·.name) := by
  rw [named?, List.find?_isSome, List.mem_map]
  simp only [beq_iff_eq]

theorem named?_eq_some_of_mem (hnames : (nodes.map (·.name)).Nodup) {node : PathNode}
    (hnode : node ∈ nodes) : named? nodes node.name = some node :=
  (find?_key_eq_some_iff hnames).mpr ⟨hnode, rfl⟩

/-- A node whose name no chain begins with has nothing to do with a further chain. -/
theorem filterMap_dropPrefix?_concat_of_ne {name segment : String} (hne : segment ≠ name)
    (rest : List String) :
    (chains ++ [segment :: rest]).filterMap (fun chain => chain.dropPrefix? [name]) =
      chains.filterMap fun chain => chain.dropPrefix? [name] := by
  simp [List.filterMap_append, List.dropPrefix?, hne]

theorem filterMap_dropPrefix?_concat_self (segment : String) (rest : List String) :
    (chains ++ [segment :: rest]).filterMap (fun chain => chain.dropPrefix? [segment]) =
      (chains.filterMap fun chain => chain.dropPrefix? [segment]) ++ [rest] := by
  simp [List.filterMap_append, List.dropPrefix?]

/-- What an insertion makes spells one chain more, behind the others. -/
theorem Spells.insert (hspells : Spells nodes chains) (segments : List String) :
    Spells (insert segments nodes) (chains ++ [segments]) := by
  induction segments generalizing nodes chains with
  | nil =>
    -- The empty chain has no first name, and no name to begin with.
    have hskipped (f : List String → Option (List String)) (hf : f [] = none) :
        (chains ++ [[]]).filterMap f = chains.filterMap f := by
      simp [List.filterMap_append, hf]
    have hheads : (chains ++ [[]]).filterMap List.head? = chains.filterMap List.head? := by
      simp [List.filterMap_append]
    rw [PathNode.insert]
    refine .intro (by rw [hheads, hspells.names_eq]) fun node hnode => ?_
    rw [hskipped _ rfl]
    exact hspells.children hnode
  | cons segment rest ih =>
    have hheads : (chains ++ [segment :: rest]).filterMap List.head? =
        chains.filterMap List.head? ++ [segment] := by
      simp [List.filterMap_append]
    obtain ⟨hnew, hinsert⟩ | ⟨before, node, after, rfl, hname, hinsert⟩ :=
      insert_cases segment rest nodes
    · -- No chain begins with the segment, so that the new line is all there is below it.
      have hfresh : segment ∉ nodes.map (·.name) := by simpa using hnew
      have hnone : chains.filterMap (fun chain => chain.dropPrefix? [segment]) = [] := by
        refine List.filterMap_eq_nil_iff.mpr fun chain hchain => ?_
        rw [← Option.not_isSome_iff_eq_none, dropPrefix?_isSome_iff]
        exact fun hprefix => hfresh (hspells.mem_names.mpr ⟨chain, hchain, hprefix⟩)
      rw [hinsert]
      refine .intro ?_ fun other hother => ?_
      · rw [hspells.names_eq, List.mem_eraseDups] at hfresh
        rw [hheads, eraseDups_concat_of_not_mem hfresh, ← hspells.names_eq]
        simp [line]
      · rcases List.mem_append.mp hother with hold | hadded
        · rw [filterMap_dropPrefix?_concat_of_ne (hnew other hold).symm]
          exact hspells.children hold
        · obtain rfl : other = ⟨segment, line rest⟩ := by simpa [line] using hadded
          have hline : line rest = PathNode.insert rest [] := by cases rest <;> rfl
          rw [filterMap_dropPrefix?_concat_self, hnone, hline]
          exact ih spells_nil
    · have hnames := hspells.names_nodup
      have hmem : segment ∈ chains.filterMap List.head? := by
        rw [← List.mem_eraseDups, ← hspells.names_eq]
        simp [hname]
      have hothers : ∀ other ∈ before ++ after, other.name ≠ segment := by
        simp only [List.map_append, List.map_cons, List.nodup_append, List.nodup_cons] at hnames
        intro other hother heq
        rcases List.mem_append.mp hother with hbefore | hafter
        · exact hnames.2.2 other.name (List.mem_map_of_mem hbefore) node.name
            List.mem_cons_self (heq.trans hname.symm)
        · exact hnames.2.1.1 (by rw [hname, ← heq]; exact List.mem_map_of_mem hafter)
      rw [hinsert]
      refine .intro ?_ fun other hother => ?_
      · rw [hheads, eraseDups_concat_of_mem hmem, ← hspells.names_eq]
        simp [hname]
      · have hcases : other = ⟨segment, PathNode.insert rest node.children⟩ ∨
            other ∈ before ++ after := by
          simpa [or_left_comm] using hother
        rcases hcases with rfl | hother
        · have hnode := hspells.children (List.mem_append_right before List.mem_cons_self)
          rw [hname] at hnode
          rw [filterMap_dropPrefix?_concat_self]
          exact ih hnode
        · rw [filterMap_dropPrefix?_concat_of_ne (hothers other hother).symm]
          exact hspells.children (by
            rcases List.mem_append.mp hother with hbefore | hafter
            · exact List.mem_append_left _ hbefore
            · exact List.mem_append_right _ (List.mem_cons_of_mem node hafter))

end Spells

section Follow

variable {node : PathNode} {chains : List (List String)}

/-- Below a node that some names lead to, the rests of the chains that begin with these names are
spelled. -/
theorem Spells.of_follow? (hspells : Spells node.children chains) {names : List String}
    {found : PathNode} (hfound : node.follow? names = some found) :
    Spells found.children (chains.filterMap fun chain => chain.dropPrefix? names) := by
  induction names generalizing node chains with
  | nil =>
    cases hfound
    simpa [List.dropPrefix?] using hspells
  | cons name rest ih =>
    rw [follow?, Option.bind_eq_some_iff] at hfound
    obtain ⟨child, hchild, hfound⟩ := hfound
    obtain ⟨hmem, rfl⟩ := named?_eq_some hchild
    have hbelow := ih (hspells.children hmem) hfound
    rw [List.filterMap_filterMap] at hbelow
    simpa only [← dropPrefix?_cons] using hbelow

theorem Spells.follow?_isSome_iff (hspells : Spells node.children chains) {names : List String} :
    (node.follow? names).isSome = true ↔ names = [] ∨ ∃ chain ∈ chains, names <+: chain := by
  induction names generalizing node chains with
  | nil => simp [follow?]
  | cons name rest ih =>
    simp only [List.cons_ne_nil, false_or]
    rw [follow?]
    cases hchild : named? node.children name with
    | none =>
      have hmissing : name ∉ node.children.map (·.name) := by
        rw [← named?_isSome_iff, hchild]
        nofun
      refine iff_of_false nofun ?_
      rintro ⟨chain, hchain, hprefix⟩
      refine hmissing (hspells.mem_names.mpr ⟨chain, hchain, ?_⟩)
      exact List.IsPrefix.trans (List.prefix_append [name] rest) hprefix
    | some child =>
      obtain ⟨hmem, rfl⟩ := named?_eq_some hchild
      obtain ⟨_, hchain, more, rfl⟩ := hspells.mem_names.mp (List.mem_map_of_mem hmem)
      rw [Option.bind_some, ih (hspells.children hmem)]
      simp only [mem_filterMap_dropPrefix?]
      constructor
      · rintro (rfl | ⟨below, hbelow, hprefix⟩)
        · exact ⟨_, hchain, List.prefix_append _ _⟩
        · exact ⟨_, hbelow, List.cons_prefix_cons.mpr ⟨rfl, hprefix⟩⟩
      · rintro ⟨_, hlonger, below, rfl⟩
        exact .inr ⟨rest ++ below, hlonger, List.prefix_append rest below⟩

end Follow

end PathNode

namespace PathTrie

open PathNode

variable {paths : List String} {maxDepth : Nat} {trie : PathTrie}

/-- Below the limit on steps a trie spells the segments of its paths. -/
theorem spells_of_ofPaths (hlimit : maxDepth ≤ maxGraftSteps)
    (hbuilt : ofPaths paths maxDepth = .ok trie) :
    Spells trie.branches (paths.map Path.segments) := by
  have hfold (nodes : List PathNode) (chains : List (List String)) (hspells : Spells nodes chains) :
      Spells (paths.foldl (fun nodes path => insert (Path.segments path) nodes) nodes)
        (chains ++ paths.map Path.segments) := by
    clear hbuilt
    induction paths generalizing nodes chains with
    | nil => simpa using hspells
    | cons path rest ih =>
      rw [List.foldl_cons, List.map_cons, List.append_cons]
      exact ih _ _ (hspells.insert (Path.segments path))
  rw [branches_of_ofPaths hlimit hbuilt]
  exact hfold [] [] spells_nil

/-- The children of the node that some segments lead to. -/
theorem map_name_children_of_follow? (hlimit : maxDepth ≤ maxGraftSteps)
    (hbuilt : ofPaths paths maxDepth = .ok trie) {leading : List String} {node : PathNode}
    (hnode : trie.root.follow? leading = some node) :
    node.children.map (·.name) = Path.nextSegments leading paths := by
  have hspells : Spells trie.root.children (paths.map Path.segments) :=
    spells_of_ofPaths hlimit hbuilt
  rw [(hspells.of_follow? hnode).names_eq, List.filterMap_filterMap, List.filterMap_map]
  rfl

theorem follow?_isSome_iff (hlimit : maxDepth ≤ maxGraftSteps)
    (hbuilt : ofPaths paths maxDepth = .ok trie) {leading : List String} :
    (trie.root.follow? leading).isSome = true ↔
      leading = [] ∨ ∃ path ∈ paths, leading <+: Path.segments path := by
  have hspells : Spells trie.root.children (paths.map Path.segments) :=
    spells_of_ofPaths hlimit hbuilt
  rw [hspells.follow?_isSome_iff]
  simp only [List.mem_map, exists_exists_and_eq_and]

/-- A trie built within the limit on steps lists what its paths lead to. Siblings have different names
everywhere. The node that some segments lead to is there exactly when there are none, or when some path
begins with them; its children are the segments that come next, in the order of the first paths that
have them. So a path is found exactly when it is a dot prefix of a path of the trie, and the branches
are the first segments of the paths. -/
theorem children_eq_nextSegments (hlimit : maxDepth ≤ maxGraftSteps)
    (hbuilt : ofPaths paths maxDepth = .ok trie) :
    Distinct trie.branches ∧
      (∀ leading, (trie.root.follow? leading).isSome = true ↔
        leading = [] ∨ ∃ path ∈ paths, leading <+: Path.segments path) ∧
      (∀ leading node, trie.root.follow? leading = some node →
        node.children.map (·.name) = Path.nextSegments leading paths) ∧
      (∀ leading segment, segment ∈ Path.nextSegments leading paths ↔
        ∃ path ∈ paths, leading ++ [segment] <+: Path.segments path) ∧
      (∀ name, (trie.find? name).isSome = true ↔
        ∃ path ∈ paths, name ∈ Path.dotPrefixes path) ∧
      trie.branches.map (·.name) = (paths.map Path.head).eraseDups := by
  refine ⟨distinct_of_ofPaths hlimit hbuilt, fun _ => follow?_isSome_iff hlimit hbuilt,
    fun _ _ => map_name_children_of_follow? hlimit hbuilt, fun _ _ => Path.mem_nextSegments,
    fun name => ?_, ?_⟩
  · have hne := Path.segments_ne_nil name
    rw [find?, find?_eq_follow? rootName hne]
    refine (follow?_isSome_iff hlimit hbuilt).trans ?_
    simp [hne, Path.mem_dotPrefixes]
  · have hroot : trie.root.follow? [] = some trie.root := rfl
    refine (map_name_children_of_follow? hlimit hbuilt hroot).trans ?_
    rw [Path.nextSegments, ← List.filterMap_eq_map]
    congr 1
    refine List.filterMap_congr fun path _ => ?_
    obtain ⟨rest, hsegments⟩ := Path.exists_segments_eq_cons path
    simp [Path.nextSegment?, hsegments]

/-- Paths that share segments, one of them a prefix of another and one with an empty segment. -/
def menuPaths : List String := ["menu.wine", "guest", "menu..price", "menu.wine.year", "menu"]

theorem children_eq_nextSegments_menu :
    ∃ trie node, 3 ≤ maxGraftSteps ∧ ofPaths menuPaths 3 = .ok trie ∧
      trie.root.follow? ["menu"] = some node ∧ node.children.map (·.name) = ["wine", ""] ∧
      (trie.find? "menu..price").isSome = true ∧ (trie.find? "menu.price").isSome = false ∧
      trie.branches.map (·.name) = ["menu", "guest"] := by
  have hlimit : 3 ≤ maxGraftSteps := by decide
  obtain ⟨_, _, hchildren, _, hfind, hbranches⟩ :=
    children_eq_nextSegments hlimit (show ofPaths menuPaths 3 = .ok _ from rfl)
  refine ⟨_, _, hlimit, rfl, rfl, (hchildren ["menu"] _ rfl).trans (by decide),
    (hfind "menu..price").mpr (by decide), ?_, hbranches.trans (by decide)⟩
  rw [← Bool.not_eq_true, hfind]
  decide

end PathTrie

end DocModel
