import DocModel.Proofs.Trie.Listing
import Mathlib.Order.Bounds.Basic

/-!
One insertion into a path trie. A path that is short enough is hung up, from the segment on at which it
parts from the trie, as the last child of the node where they part; nothing changes where it does not part
from the trie, or does so only behind the limit on steps.
-/

namespace DocModel

namespace PathNode

/-- Siblings, and the same ones with some more nodes behind the children of the node that the names lead
to. Nothing else differs. -/
inductive Extended (more : List PathNode) : List String → List PathNode → List PathNode → Prop where
  | here {nodes : List PathNode} : Extended more [] nodes (nodes ++ more)
  | through {node : PathNode} {rest : List String} {before after children : List PathNode}
      (hchildren : Extended more rest node.children children) :
      Extended more (node.name :: rest) (before ++ node :: after)
        (before ++ ⟨node.name, children⟩ :: after)

/-- An insertion extends the node that the shared segments lead to by a line of the other ones. -/
theorem extended_insert {nodes : List PathNode} {segments : List String}
    (hparts : shared nodes segments < segments.length) :
    Extended (line (segments.drop (shared nodes segments)))
      (segments.take (shared nodes segments)) nodes (insert segments nodes) := by
  induction segments generalizing nodes with
  | nil => cases hparts
  | cons segment rest ih =>
    rw [insert]
    cases hnamed : named? nodes segment with
    | none =>
      simp only [shared, hnamed]
      exact .here
    | some node =>
      have hshared : shared nodes (segment :: rest) = shared node.children rest + 1 := by
        simp [shared, hnamed]
      rw [hshared, List.length_cons, Nat.add_lt_add_iff_right] at hparts
      obtain ⟨before, after, rfl, rfl, hbefore⟩ := exists_append_of_named? hnamed
      rw [hshared]
      change Extended _ _ _ (updateFirst node.name _ _)
      rw [updateFirst_append hbefore rfl]
      exact .through (ih hparts)

section Distinct

variable {nodes : List PathNode}

/-- A chain goes through the one sibling with its first name. -/
theorem Distinct.cons_mem_chains_iff (hdistinct : Distinct nodes) {name : String}
    {rest : List String} :
    name :: rest ∈ chains nodes ↔
      ∃ node, named? nodes name = some node ∧ (rest = [] ∨ rest ∈ chains node.children) := by
  constructor
  · intro hchain
    obtain ⟨node, hnode, hchain⟩ := List.mem_flatMap.mp hchain
    obtain ⟨_, hcons, hrest⟩ := mem_chainsFrom.mp hchain
    cases hcons
    exact ⟨node, named?_eq_some_of_mem hdistinct.names_nodup hnode, hrest⟩
  · rintro ⟨node, hnamed, hrest⟩
    obtain ⟨hnode, rfl⟩ := named?_eq_some hnamed
    exact List.mem_flatMap.mpr ⟨node, hnode, mem_chainsFrom.mpr ⟨rest, rfl, hrest⟩⟩

/-- Among distinct siblings the shared segments are those that are spelled by a chain. -/
theorem Distinct.le_shared_iff (hdistinct : Distinct nodes) {segments : List String} {count : Nat}
    (hcount : count ≤ segments.length) :
    count ≤ shared nodes segments ↔ count = 0 ∨ segments.take count ∈ chains nodes := by
  induction segments generalizing nodes count with
  | nil =>
    obtain rfl : count = 0 := by simpa using hcount
    simp
  | cons segment rest ih =>
    cases count with
    | zero => simp
    | succ count =>
      have hcount : count ≤ rest.length := by simpa using hcount
      have hempty : rest.take count = [] ↔ count = 0 := by
        rw [List.take_eq_nil_iff, or_iff_left_of_imp]
        rintro rfl
        simpa using hcount
      rw [List.take_succ_cons, hdistinct.cons_mem_chains_iff, shared]
      cases hnamed : named? nodes segment with
      | none => simp
      | some node =>
        have hbelow := ih (hdistinct.children (named?_eq_some hnamed).1) hcount
        simp [hbelow, hempty]

/-- The count of shared segments is the length of the longest leading part that is spelled by a chain. -/
theorem Distinct.isGreatest_shared (hdistinct : Distinct nodes) (segments : List String) :
    IsGreatest {count | count ≤ segments.length ∧
      (count = 0 ∨ segments.take count ∈ chains nodes)} (shared nodes segments) := by
  have hle := shared_le_length nodes segments
  exact ⟨⟨hle, (hdistinct.le_shared_iff hle).mp le_rfl⟩,
    fun count ⟨hcount, hchain⟩ => (hdistinct.le_shared_iff hcount).mpr hchain⟩

/-- What was inserted is shared as a whole. -/
theorem Distinct.shared_insert (hdistinct : Distinct nodes) (segments : List String) :
    PathNode.shared (PathNode.insert segments nodes) segments = segments.length := by
  refine le_antisymm (shared_le_length _ _) ?_
  rw [(hdistinct.insert segments).le_shared_iff le_rfl, List.take_length, mem_chains_insert]
  cases segments with
  | nil => exact .inl rfl
  | cons segment rest =>
    exact .inr (.inr (Path.mem_leading.mpr ⟨List.cons_ne_nil segment rest, List.prefix_rfl⟩))

end Distinct

end PathNode

namespace PathTrie

open PathNode

/-- How many leading segments of a path a trie has. -/
def shared (trie : PathTrie) (path : String) : Nat :=
  PathNode.shared trie.branches (Path.segments path)

/-- The trie after a path was to be added under some bound. When that fails, the trie stays. -/
def attempt (trie : PathTrie) (addition : String × Nat) : PathTrie :=
  match trie.addPath addition.1 addition.2 with
  | .ok next => next
  | .error _ => trie

/-- A trie of some paths to which others were added in any order and under any bounds, where some of the
additions may have failed. -/
def IsGrown (trie : PathTrie) : Prop :=
  ∃ paths maxDepth start, ofPaths paths maxDepth = .ok start ∧
    ∃ additions : List (String × Nat), additions.foldl attempt start = trie

/-- Within the depth bound a path is inserted, unless it agrees with the nodes for too many steps. -/
theorem graftPath_eq_ite (nodes : List PathNode) (path : String) :
    graftPath nodes path =
      if maxGraftSteps ≤ PathNode.shared nodes (Path.segments path) then nodes
      else insert (Path.segments path) nodes := by
  rw [graftPath]
  obtain ⟨rest, hsegments⟩ := Path.exists_segments_eq_cons path
  rw [hsegments]
  exact graft_eq_ite maxGraftSteps nodes (Path.head path) rest

theorem distinct_graftPath {nodes : List PathNode} (hdistinct : Distinct nodes) (path : String) :
    Distinct (graftPath nodes path) := by
  rw [graftPath_eq_ite]
  split
  · exact hdistinct
  · exact hdistinct.insert (Path.segments path)

theorem distinct_attempt {trie : PathTrie} (hdistinct : Distinct trie.branches)
    (addition : String × Nat) : Distinct (trie.attempt addition).branches := by
  rw [attempt, addPath_eq]
  split
  · next next hok =>
    split at hok
    · cases hok
      exact distinct_graftPath hdistinct addition.1
    · cases hok
  · exact hdistinct

/-- Siblings in a trie have different names, however the trie came about. -/
theorem IsGrown.distinct {trie : PathTrie} (htrie : trie.IsGrown) : Distinct trie.branches := by
  obtain ⟨paths, maxDepth, start, hbuilt, additions, rfl⟩ := htrie
  have hstart : Distinct start.branches := by
    rw [ofPaths_eq] at hbuilt
    split at hbuilt
    · cases hbuilt
      exact List.foldlRecOn (motive := Distinct) paths graftPath (.intro (by simp) (by simp))
        fun nodes hnodes path _ => distinct_graftPath hnodes path
    · cases hbuilt
  exact List.foldlRecOn (motive := fun trie => Distinct trie.branches) additions attempt hstart
    fun trie hdistinct addition _ => distinct_attempt hdistinct addition

section Addition

variable {trie : PathTrie} {path : String} {maxDepth : Nat}

theorem addPath_of_long (hlong : maxDepth < (Path.segments path).length) :
    trie.addPath path maxDepth = .error (.potentialLoop .trie maxDepth) := by
  rw [addPath_eq, if_neg (Nat.not_le.mpr hlong)]

/-- A path that the trie has, or that it shares too many steps with, adds nothing. -/
theorem addPath_eq_self (hfits : (Path.segments path).length ≤ maxDepth)
    (hshared : trie.shared path = (Path.segments path).length ∨ maxGraftSteps ≤ trie.shared path) :
    trie.addPath path maxDepth = .ok trie := by
  have hnodes : graftPath trie.branches path = trie.branches := by
    rw [graftPath_eq_ite]
    split
    · rfl
    · next hsteps => exact insert_eq_self (hshared.resolve_right hsteps)
  rw [addPath_eq, if_pos hfits, hnodes]

/-- Within both guards a path is inserted. -/
theorem addPath_of_parts (hfits : (Path.segments path).length ≤ maxDepth)
    (hsteps : trie.shared path < maxGraftSteps) :
    trie.addPath path maxDepth = .ok ⟨insert (Path.segments path) trie.branches⟩ := by
  have hshared : ¬ maxGraftSteps ≤ PathNode.shared trie.branches (Path.segments path) :=
    Nat.not_le.mpr hsteps
  rw [addPath_eq, if_pos hfits, graftPath_eq_ite, if_neg hshared]

/-- What becomes of a path that is accepted. -/
theorem addPath_eq_ok_cases {next : PathTrie} (hok : trie.addPath path maxDepth = .ok next) :
    (Path.segments path).length ≤ maxDepth ∧
      (maxGraftSteps ≤ trie.shared path ∧ next = trie ∨
        trie.shared path < maxGraftSteps ∧ next = ⟨insert (Path.segments path) trie.branches⟩) := by
  rcases Nat.lt_or_ge maxDepth (Path.segments path).length with hlong | hfits
  · rw [addPath_of_long hlong] at hok
    cases hok
  · refine ⟨hfits, ?_⟩
    rcases Nat.lt_or_ge (trie.shared path) maxGraftSteps with hsteps | hsteps
    · rw [addPath_of_parts hfits hsteps] at hok
      exact .inr ⟨hsteps, (Except.ok.inj hok).symm⟩
    · rw [addPath_eq_self hfits (.inr hsteps)] at hok
      exact .inl ⟨hsteps, (Except.ok.inj hok).symm⟩

/-- Adding a path once more is adding it once. -/
theorem addPath_attempt (hdistinct : Distinct trie.branches) :
    (trie.attempt (path, maxDepth)).addPath path maxDepth = trie.addPath path maxDepth := by
  cases hresult : trie.addPath path maxDepth with
  | error error => simp only [attempt, hresult]
  | ok next =>
    simp only [attempt, hresult]
    obtain ⟨hfits, ⟨hsteps, rfl⟩ | ⟨_, rfl⟩⟩ := addPath_eq_ok_cases hresult
    · exact addPath_eq_self hfits (.inr hsteps)
    · exact addPath_eq_self hfits (.inl (hdistinct.shared_insert (Path.segments path)))

/-- As long as the depth bound keeps paths within the limit on steps, none is dropped. -/
theorem segments_mem_chains_of_addPath (hdistinct : Distinct trie.branches)
    (hlimit : maxDepth ≤ maxGraftSteps) {next : PathTrie}
    (hok : trie.addPath path maxDepth = .ok next) : Path.segments path ∈ chains next.branches := by
  have hwhole {nodes : List PathNode} (hnodes : Distinct nodes)
      (hshared : (Path.segments path).length ≤ PathNode.shared nodes (Path.segments path)) :
      Path.segments path ∈ chains nodes := by
    have hchain := (hnodes.le_shared_iff le_rfl).mp hshared
    rw [List.take_length, List.length_eq_zero_iff] at hchain
    exact hchain.resolve_left (Path.segments_ne_nil path)
  obtain ⟨hfits, ⟨hsteps, rfl⟩ | ⟨_, rfl⟩⟩ := addPath_eq_ok_cases hok
  · exact hwhole hdistinct (hfits.trans (hlimit.trans hsteps))
  · exact hwhole (hdistinct.insert _) (hdistinct.shared_insert _).ge

end Addition

/-- Adding a path to a trie, with both guards. Siblings have different names, and the shared segments are
the longest leading part of the path that the trie has as a chain from the top. A path with more segments
than the depth bound is refused and leaves the trie as it was. Of the others, those that are shared as a
whole or for ninety-nine segments and more leave it as it was, too; any other one is hung up as a line of
its remaining segments behind the children of the node that its shared ones lead to. So adding a path
again adds nothing, and under a bound of at most ninety-nine an accepted path is never dropped. -/
theorem addPath_of_isGrown {trie : PathTrie} (htrie : trie.IsGrown) (path : String) (maxDepth : Nat) :
    Distinct trie.branches ∧
    IsGreatest {count | count ≤ (Path.segments path).length ∧
      (count = 0 ∨ (Path.segments path).take count ∈ chains trie.branches)} (trie.shared path) ∧
    (maxDepth < (Path.segments path).length →
      trie.addPath path maxDepth = .error (.potentialLoop .trie maxDepth) ∧
        trie.attempt (path, maxDepth) = trie) ∧
    ((Path.segments path).length ≤ maxDepth →
      trie.shared path = (Path.segments path).length ∨ 99 ≤ trie.shared path →
        trie.addPath path maxDepth = .ok trie) ∧
    ((Path.segments path).length ≤ maxDepth → trie.shared path < (Path.segments path).length →
      trie.shared path < 99 → ∃ next, trie.addPath path maxDepth = .ok next ∧
        Extended (line ((Path.segments path).drop (trie.shared path)))
          ((Path.segments path).take (trie.shared path)) trie.branches next.branches) ∧
    (trie.attempt (path, maxDepth)).addPath path maxDepth = trie.addPath path maxDepth ∧
    (maxDepth ≤ 99 → ∀ next, trie.addPath path maxDepth = .ok next →
      Path.segments path ∈ chains next.branches) := by
  have hdistinct := htrie.distinct
  refine ⟨hdistinct, hdistinct.isGreatest_shared (Path.segments path), fun hlong => ?_,
    fun hfits => addPath_eq_self hfits, fun hfits hparts hsteps => ?_, addPath_attempt hdistinct,
    fun hlimit next hok => segments_mem_chains_of_addPath hdistinct hlimit hok⟩
  · have hfails : trie.addPath path maxDepth = .error (.potentialLoop .trie maxDepth) :=
      addPath_of_long hlong
    exact ⟨hfails, by rw [attempt, hfails]⟩
  · exact ⟨_, addPath_of_parts hfits hsteps, extended_insert hparts⟩

/-- A trie of one path, to which a longer one was added in vain and a short one behind it. -/
def wineTrie : PathTrie := ⟨[⟨"menu", [⟨"wine", []⟩]⟩, ⟨"guest", []⟩]⟩

theorem isGrown_wineTrie : wineTrie.IsGrown :=
  ⟨["menu.wine"], 2, ⟨[⟨"menu", [⟨"wine", []⟩]⟩]⟩, rfl, [("menu.wine.year", 2), ("guest", 1)], rfl⟩

/-- Under a bound of two the longer path is refused again; under a bound of three its last segment is hung
up below the other two. -/
theorem addPath_of_isGrown_wine :
    wineTrie.IsGrown ∧ wineTrie.shared "menu.wine.year" = 2 ∧
      wineTrie.attempt ("menu.wine.year", 2) = wineTrie ∧
      wineTrie.addPath "menu.wine" 2 = .ok wineTrie ∧
      ∃ next, wineTrie.addPath "menu.wine.year" 3 = .ok next ∧
        Extended [⟨"year", []⟩] ["menu", "wine"] wineTrie.branches next.branches ∧
        ["menu", "wine", "year"] ∈ chains next.branches := by
  obtain ⟨_, _, _, _, hparts, _, hkept⟩ := addPath_of_isGrown isGrown_wineTrie "menu.wine.year" 3
  obtain ⟨_, _, hrefused, _⟩ := addPath_of_isGrown isGrown_wineTrie "menu.wine.year" 2
  obtain ⟨_, _, _, hwhole, _⟩ := addPath_of_isGrown isGrown_wineTrie "menu.wine" 2
  obtain ⟨next, hok, hnext⟩ := hparts (by decide) (by decide) (by decide)
  exact ⟨isGrown_wineTrie, by decide, (hrefused (by decide)).2, hwhole (by decide) (by decide), next, hok,
    hnext, hkept (by decide) next hok⟩

end PathTrie

end DocModel
