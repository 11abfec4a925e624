import DocModel.Proofs.Path.Segments
import DocModel.Proofs.Trie.Height
import Mathlib.Data.List.Nodup

/-!
What a path trie holds. Grafting within its limit on steps is insertion, siblings keep different names
under insertion, and the chains of names in a trie are the leading segments of its paths.
-/

namespace DocModel

namespace PathNode

/-- The nodes with the chain of some segments inserted: it goes down as long as the names agree and
hangs up the rest of the chain where they part. -/
def insert : List String → List PathNode → List PathNode
  | [], nodes => nodes
  | segment :: rest, nodes =>
    match named? nodes segment with
    | none => nodes ++ line (segment :: rest)
    | some _ => updateFirst segment (fun node => ⟨node.name, insert rest node.children⟩) nodes

theorem updateFirst_self (name : String) (nodes : List PathNode) :
    updateFirst name (fun node => ⟨node.name, node.children⟩) nodes = nodes := by
  induction nodes with
  | nil => rfl
  | cons first rest ih =>
    cases first
    rw [updateFirst, ih]
    split <;> rfl

/-- The first node with a name stands behind nodes with other names. -/
theorem exists_append_of_named? {nodes : List PathNode} {name : String} {node : PathNode}
    (hnamed : named? nodes name = some node) :
    ∃ before after, nodes = before ++ node :: after ∧ node.name = name ∧
      ∀ other ∈ before, other.name ≠ name := by
  obtain ⟨hname, before, after, rfl, hbefore⟩ := List.find?_eq_some_iff_append.mp hnamed
  exact ⟨before, after, rfl, by simpa using hname, fun other hother => by simpa using hbefore other hother⟩

theorem updateFirst_append {name : String} {change : PathNode → PathNode} {before after : List PathNode}
    {node : PathNode} (hbefore : ∀ other ∈ before, other.name ≠ name) (hnode : node.name = name) :
    updateFirst name change (before ++ node :: after) = before ++ change node :: after := by
  induction before with
  | nil => simp [updateFirst, hnode]
  | cons first rest ih =>
    have hfirst := hbefore first List.mem_cons_self
    have hrest := ih fun other hother => hbefore other (List.mem_cons_of_mem first hother)
    simp [updateFirst, hfirst, hrest]

/-- How many leading segments agree with the names on the way down. -/
def shared : List PathNode → List String → Nat
  | _, [] => 0
  | nodes, segment :: rest =>
    match named? nodes segment with
    | none => 0
    | some node => shared node.children rest + 1

theorem shared_le_length (nodes : List PathNode) (segments : List String) :
    shared nodes segments ≤ segments.length := by
  induction segments generalizing nodes with
  | nil => rfl
  | cons segment rest ih =>
    rw [shared]
    split
    · exact Nat.zero_le _
    · exact Nat.succ_le_succ (ih _)

/-- An insertion of what is there already changes nothing. -/
theorem insert_eq_self {nodes : List PathNode} {segments : List String}
    (hshared : shared nodes segments = segments.length) : insert segments nodes = nodes := by
  induction segments generalizing nodes with
  | nil => rfl
  | cons segment rest ih =>
    rw [insert]
    cases hnamed : named? nodes segment with
    | none => simp [shared, hnamed] at hshared
    | some node =>
      obtain ⟨before, after, rfl, hname, hbefore⟩ := exists_append_of_named? hnamed
      have hbelow : insert rest node.children = node.children := by
        refine ih ?_
        simpa [shared, hnamed] using hshared
      change updateFirst segment _ _ = _
      rw [updateFirst_append hbefore hname, hbelow]
      cases node
      rfl

/-- A graft that runs out of steps on what it shares with the nodes changes nothing, and any other graft
is an insertion. -/
theorem graft_eq_ite (steps : Nat) (nodes : List PathNode) (segment : String) (rest : List String) :
    graft steps nodes ⟨segment, line rest⟩ =
      if steps ≤ shared nodes (segment :: rest) then nodes else insert (segment :: rest) nodes := by
  induction rest generalizing steps segment nodes with
  | nil =>
    cases steps with
    | zero => simp [graft]
    | succ steps =>
      rw [graft, insert]
      cases hnamed : named? nodes segment with
      | none => simp [shared, hnamed, line]
      | some node => simp [line, insert, updateFirst_self]
  | cons next rest ih =>
    cases steps with
    | zero => simp [graft]
    | succ steps =>
      rw [graft, insert, shared]
      cases hnamed : named? nodes segment with
      | none => simp [line]
      | some node =>
        obtain ⟨before, after, rfl, hname, hbefore⟩ := exists_append_of_named? hnamed
        simp only [line, Nat.add_le_add_iff_right, updateFirst_append hbefore hname, ih]
        cases node
        split <;> rfl

/-- A graft that has a step for every segment is an insertion. -/
theorem graft_eq_insert {steps : Nat} {segment : String} {rest : List String}
    (hsteps : rest.length < steps) (nodes : List PathNode) :
    graft steps nodes ⟨segment, line rest⟩ = insert (segment :: rest) nodes := by
  have hle := shared_le_length nodes (segment :: rest)
  rw [graft_eq_ite]
  split
  · next hout =>
    rw [List.length_cons] at hle
    exact (insert_eq_self (by rw [List.length_cons]; omega)).symm
  · rfl

/-- An insertion either adds a sibling with a new name or goes on below the first sibling with the name,
and leaves all other siblings alone. -/
theorem insert_cases (segment : String) (rest : List String) (nodes : List PathNode) :
    ((∀ node ∈ nodes, node.name ≠ segment) ∧
      insert (segment :: rest) nodes = nodes ++ line (segment :: rest)) ∨
    ∃ before node after, nodes = before ++ node :: after ∧ node.name = segment ∧
      insert (segment :: rest) nodes =
        before ++ ⟨segment, insert rest node.children⟩ :: after := by
  rw [insert]
  cases hnamed : named? nodes segment with
  | none =>
    refine .inl ⟨fun node hnode hname => ?_, rfl⟩
    have hnone := List.find?_eq_none.mp hnamed node hnode
    simp [hname] at hnone
  | some node =>
    obtain ⟨before, after, rfl, hname, hbefore⟩ := exists_append_of_named? hnamed
    refine .inr ⟨before, node, after, rfl, hname, ?_⟩
    change updateFirst segment _ _ = _
    rw [updateFirst_append hbefore hname, hname]

/-- The chains of names that lead from a node to itself and to all nodes below it. -/
def chainsFrom (node : PathNode) : List (List String) :=
  [node.name] :: (node.children.flatMap fun child => chainsFrom child).map (node.name :: ·)
termination_by sizeOf node
decreasing_by exact sizeOf_lt_of_mem_children ‹_›

/-- The chains of names that lead to the nodes of some siblings and to all nodes below them. -/
def chains (nodes : List PathNode) : List (List String) :=
  nodes.flatMap chainsFrom

theorem chainsFrom_eq (node : PathNode) :
    chainsFrom node = [node.name] :: (chains node.children).map (node.name :: ·) := by
  rw [chainsFrom]
  rfl

theorem chains_append (nodes more : List PathNode) :
    chains (nodes ++ more) = chains nodes ++ chains more :=
  List.flatMap_append

theorem mem_chainsFrom {node : PathNode} {chain : List String} :
    chain ∈ chainsFrom node ↔
      ∃ rest, chain = node.name :: rest ∧ (rest = [] ∨ rest ∈ chains node.children) := by
  rw [chainsFrom_eq, List.mem_cons, List.mem_map]
  constructor
  · rintro (rfl | ⟨rest, hrest, rfl⟩)
    · exact ⟨[], rfl, .inl rfl⟩
    · exact ⟨rest, rfl, .inr hrest⟩
  · rintro ⟨rest, rfl, rfl | hrest⟩
    · exact .inl rfl
    · exact .inr ⟨rest, hrest, rfl⟩

theorem ne_nil_of_mem_chains {nodes : List PathNode} {chain : List String}
    (hmem : chain ∈ chains nodes) : chain ≠ [] := by
  obtain ⟨node, _, hchain⟩ := List.mem_flatMap.mp hmem
  obtain ⟨rest, rfl, _⟩ := mem_chainsFrom.mp hchain
  exact List.cons_ne_nil _ _

/-- Chains begin with the name of the sibling they go through. -/
theorem mem_chains_filter (keep : String → Bool) {nodes : List PathNode} {chain : List String} :
    chain ∈ chains (nodes.filter fun node => keep node.name) ↔
      chain ∈ chains nodes ∧ ∀ name ∈ chain.head?, keep name = true := by
  simp only [chains, List.mem_flatMap, List.mem_filter]
  constructor
  · rintro ⟨node, ⟨hnode, hkeep⟩, hchain⟩
    refine ⟨⟨node, hnode, hchain⟩, ?_⟩
    obtain ⟨rest, rfl, _⟩ := mem_chainsFrom.mp hchain
    simpa using hkeep
  · rintro ⟨⟨node, hnode, hchain⟩, hhead⟩
    refine ⟨node, ⟨hnode, ?_⟩, hchain⟩
    obtain ⟨rest, rfl, _⟩ := mem_chainsFrom.mp hchain
    simpa using hhead

/-- The chains of a line are the leading parts of what it was made of. -/
theorem chains_line (segments : List String) : chains (line segments) = Path.leading segments := by
  induction segments with
  | nil => rfl
  | cons segment rest ih =>
    have hline : chains (line (segment :: rest)) = chainsFrom ⟨segment, line rest⟩ := by
      simp [line, chains]
    rw [hline, chainsFrom_eq, ih, Path.leading]

/-- An insertion adds the leading parts of what is inserted and nothing else. -/
theorem mem_chains_insert {segments chain : List String} {nodes : List PathNode} :
    chain ∈ chains (insert segments nodes) ↔
      chain ∈ chains nodes ∨ chain ∈ Path.leading segments := by
  induction segments generalizing chain nodes with
  | nil => simp [insert, Path.leading]
  | cons segment rest ih =>
    obtain ⟨_, hinsert⟩ | ⟨before, node, after, rfl, hname, hinsert⟩ :=
      insert_cases segment rest nodes
    · rw [hinsert, chains_append, List.mem_append, chains_line]
    · have hchanged : chain ∈ chainsFrom ⟨segment, insert rest node.children⟩ ↔
          chain ∈ chainsFrom node ∨ chain ∈ Path.leading (segment :: rest) := by
        rw [mem_chainsFrom, mem_chainsFrom, Path.mem_leading_cons, hname, ← exists_or]
        simp only [ih]
        exact exists_congr fun below => by tauto
      rw [hinsert]
      simp only [chains, List.flatMap_append, List.flatMap_cons, List.mem_append, hchanged]
      tauto

/-- Siblings have different names, at every level. -/
inductive Distinct : List PathNode → Prop where
  | intro {nodes : List PathNode} (hnames : (nodes.map (·.name)).Nodup)
      (hchildren : ∀ node ∈ nodes, Distinct node.children) : Distinct nodes

theorem Distinct.names_nodup {nodes : List PathNode} (hdistinct : Distinct nodes) :
    (nodes.map (·.name)).Nodup := by
  cases hdistinct
  assumption

theorem Distinct.children {nodes : List PathNode} (hdistinct : Distinct nodes) {node : PathNode}
    (hnode : node ∈ nodes) : Distinct node.children := by
  cases hdistinct with
  | intro _ hchildren => exact hchildren node hnode

theorem Distinct.filter {nodes : List PathNode} (hdistinct : Distinct nodes)
    (keep : PathNode → Bool) : Distinct (nodes.filter keep) :=
  .intro (hdistinct.names_nodup.sublist (List.filter_sublist.map _)) fun _ hnode =>
    hdistinct.children (List.mem_of_mem_filter hnode)

theorem distinct_line (segments : List String) : Distinct (line segments) := by
  induction segments with
  | nil => exact .intro (by simp [line]) (by simp [line])
  | cons segment rest ih => exact .intro (by simp [line]) (by simpa [line] using ih)

theorem Distinct.insert {nodes : List PathNode} (hdistinct : Distinct nodes)
    (segments : List String) : Distinct (insert segments nodes) := by
  induction segments generalizing nodes with
  | nil => exact hdistinct
  | cons segment rest ih =>
    obtain ⟨hnew, hinsert⟩ | ⟨before, node, after, rfl, hname, hinsert⟩ :=
      insert_cases segment rest nodes
    · have hline := distinct_line (segment :: rest)
      rw [hinsert]
      refine .intro ?_ fun other hother => ?_
      · rw [List.map_append, List.nodup_append]
        refine ⟨hdistinct.names_nodup, hline.names_nodup, ?_⟩
        simpa [line] using hnew
      · rcases List.mem_append.mp hother with hold | hadded
        · exact hdistinct.children hold
        · exact hline.children hadded
    · have hnode := hdistinct.children (List.mem_append_right before List.mem_cons_self)
      have hnames := hdistinct.names_nodup
      rw [hinsert]
      refine .intro (by simpa [hname] using hnames) fun other hother => ?_
      rcases List.mem_append.mp hother with hbefore | hother
      · exact hdistinct.children (List.mem_append_left _ hbefore)
      · rcases List.mem_cons.mp hother with rfl | hafter
        · exact ih hnode
        · exact hdistinct.children (List.mem_append_right _ (List.mem_cons_of_mem node hafter))

/-- Distinct siblings spell every chain once. -/
theorem Distinct.nodup_chains {nodes : List PathNode} (hdistinct : Distinct nodes) :
    (chains nodes).Nodup := by
  induction hdistinct with
  | @intro nodes hnames _ ih =>
    refine List.nodup_flatMap.mpr ⟨fun node hnode => ?_, ?_⟩
    · rw [chainsFrom_eq, List.nodup_cons]
      refine ⟨fun hown => ?_, (ih node hnode).map (List.cons_injective)⟩
      obtain ⟨rest, hrest, heq⟩ := List.mem_map.mp hown
      exact ne_nil_of_mem_chains hrest (List.cons.inj heq).2
    · refine (List.pairwise_map.mp hnames).imp fun hne => ?_
      refine List.disjoint_left.mpr ?_
      intro chain hleft hright
      obtain ⟨_, rfl, _⟩ := mem_chainsFrom.mp hleft
      obtain ⟨_, heq, _⟩ := mem_chainsFrom.mp hright
      exact hne (List.cons.inj heq).1

/-- Grafting brings in no names but those of the chain that is grafted, wherever it stops. -/
theorem names_of_mem_chains_graft {motive : String → Prop} {steps : Nat} {siblings : List PathNode}
    {branch : PathNode} (hsiblings : ∀ chain ∈ chains siblings, ∀ name ∈ chain, motive name)
    (hbranch : ∀ chain ∈ chainsFrom branch, ∀ name ∈ chain, motive name) :
    ∀ chain ∈ chains (graft steps siblings branch), ∀ name ∈ chain, motive name := by
  induction steps generalizing siblings branch with
  | zero => exact hsiblings
  | succ steps ih =>
    intro chain hchain
    rw [graft] at hchain
    split at hchain
    · rw [chains_append, List.mem_append] at hchain
      rcases hchain with hold | hnew
      · exact hsiblings chain hold
      · exact hbranch chain (by simpa [chains] using hnew)
    · exact hsiblings chain hchain
    · next below others _ hbelow =>
      obtain ⟨node, hnode, hchain⟩ := List.mem_flatMap.mp hchain
      rcases mem_updateFirst hnode with hold | ⟨old, hold, rfl⟩
      · exact hsiblings chain (List.mem_flatMap.mpr ⟨node, hold, hchain⟩)
      · obtain ⟨rest, rfl, hrest⟩ := mem_chainsFrom.mp hchain
        have hold' (chain : List String) (hchain : chain ∈ chainsFrom old) :
            ∀ name ∈ chain, motive name :=
          hsiblings chain (List.mem_flatMap.mpr ⟨old, hold, hchain⟩)
        have hname : motive old.name :=
          hold' [old.name] (mem_chainsFrom.mpr ⟨[], rfl, .inl rfl⟩) _ List.mem_cons_self
        refine List.forall_mem_cons.mpr ⟨hname, ?_⟩
        rcases hrest with rfl | hrest
        · exact List.forall_mem_nil _
        · refine ih (fun chain hchain name hmem => ?_) (fun chain hchain name hmem => ?_) rest hrest
          · exact hold' (old.name :: chain) (mem_chainsFrom.mpr ⟨chain, rfl, .inr hchain⟩) name
              (List.mem_cons_of_mem _ hmem)
          · have hmore : chain ∈ chains branch.children := by
              rw [hbelow]
              exact List.mem_flatMap.mpr ⟨below, List.mem_cons_self, hchain⟩
            exact hbranch (branch.name :: chain) (mem_chainsFrom.mpr ⟨chain, rfl, .inr hmore⟩) name
              (List.mem_cons_of_mem _ hmem)

end PathNode

namespace PathTrie

open PathNode

theorem graftPath_eq_insert {path : String} (hlimit : (Path.segments path).length ≤ maxGraftSteps)
    (nodes : List PathNode) : graftPath nodes path = insert (Path.segments path) nodes := by
  rw [graftPath]
  cases hsegments : Path.segments path with
  | nil => rfl
  | cons segment rest =>
    rw [hsegments] at hlimit
    exact graft_eq_insert hlimit nodes

variable {paths : List String} {maxDepth : Nat} {trie : PathTrie}

/-- Below the limit on steps a trie is what its paths give when they are inserted in order. -/
theorem branches_of_ofPaths (hlimit : maxDepth ≤ maxGraftSteps)
    (hbuilt : ofPaths paths maxDepth = .ok trie) :
    trie.branches = paths.foldl (fun nodes path => insert (Path.segments path) nodes) [] := by
  rw [ofPaths_eq] at hbuilt
  split at hbuilt
  · next hpaths =>
    cases hbuilt
    refine List.foldl_ext _ _ _ fun nodes path hpath => ?_
    exact graftPath_eq_insert (Nat.le_trans (hpaths path hpath) hlimit) nodes
  · cases hbuilt

theorem distinct_of_ofPaths (hlimit : maxDepth ≤ maxGraftSteps)
    (hbuilt : ofPaths paths maxDepth = .ok trie) : Distinct trie.branches := by
  rw [branches_of_ofPaths hlimit hbuilt]
  refine List.foldlRecOn (motive := Distinct) paths _ ?_ fun nodes hnodes path _ =>
    hnodes.insert (Path.segments path)
  exact .intro (by simp) (by simp)

/-- The chains of a trie are the leading segments of its paths. -/
theorem mem_chains_of_ofPaths (hlimit : maxDepth ≤ maxGraftSteps)
    (hbuilt : ofPaths paths maxDepth = .ok trie) {chain : List String} :
    chain ∈ chains trie.branches ↔ ∃ path ∈ paths, chain ∈ Path.leading (Path.segments path) := by
  have hfold (nodes : List PathNode) :
      chain ∈ chains (paths.foldl (fun nodes path => insert (Path.segments path) nodes) nodes) ↔
        chain ∈ chains nodes ∨ ∃ path ∈ paths, chain ∈ Path.leading (Path.segments path) := by
    clear hbuilt
    induction paths generalizing nodes with
    | nil => simp
    | cons path rest ih =>
      rw [List.foldl_cons, ih, mem_chains_insert]
      simp only [List.exists_mem_cons_iff]
      tauto
  rw [branches_of_ofPaths hlimit hbuilt, hfold]
  simp [chains]

/-- The names in a trie are segments of its paths, also when grafting has run out of steps. -/
theorem forall_names_of_ofPaths {motive : String → Prop} {paths : List String} {maxDepth : Nat}
    {trie : PathTrie} (hbuilt : ofPaths paths maxDepth = .ok trie)
    (hpaths : ∀ path ∈ paths, ∀ name ∈ Path.segments path, motive name) :
    ∀ chain ∈ chains trie.branches, ∀ name ∈ chain, motive name := by
  rw [ofPaths_eq] at hbuilt
  split at hbuilt
  · cases hbuilt
    refine List.foldlRecOn (motive := fun nodes => ∀ chain ∈ chains nodes, ∀ name ∈ chain,
      motive name) paths graftPath nofun fun nodes hnodes path hpath => ?_
    rw [graftPath]
    cases hsegments : Path.segments path with
    | nil => exact hnodes
    | cons segment rest =>
      refine names_of_mem_chains_graft hnodes fun chain hchain name hname => ?_
      have hleading : chain ∈ Path.leading (Path.segments path) := by
        rw [hsegments, ← chains_line]
        exact List.mem_flatMap.mpr ⟨_, List.mem_cons_self, hchain⟩
      have hmem := List.IsPrefix.subset (Path.mem_leading.mp hleading).2 hname
      exact hpaths path hpath name hmem
  · cases hbuilt

/-- No name in a trie holds a dot. -/
theorem isSegment_of_mem_chains {paths : List String} {maxDepth : Nat} {trie : PathTrie}
    (hbuilt : ofPaths paths maxDepth = .ok trie) :
    ∀ chain ∈ chains trie.branches, ∀ name ∈ chain, Path.IsSegment name :=
  forall_names_of_ofPaths hbuilt fun _ _ _ => Path.isSegment_of_mem_segments

end PathTrie

end DocModel
