import DocModel.Error
import DocModel.Path

/-!
Path tries: data paths merged into one tree, in which every path from a top node downwards spells
the first segments of a data path. Adding a path fails when the path has more segments than the
depth bound, and then leaves the trie as it was.
-/

namespace DocModel

/-- A node of a path trie, with the nodes of the next segments below it. -/
structure PathNode where
  name : String
  children : List PathNode
deriving Inhabited

namespace PathNode

def isLeaf (node : PathNode) : Bool := node.children.isEmpty

/-- The first node with a name. -/
def named? (nodes : List PathNode) (name : String) : Option PathNode :=
  nodes.find? (·.name == name)

/-- One node under the other for the segments of a path. Every segment takes one from the depth that
is left; with none left there is no such chain. -/
def chain? : List String → Nat → Option PathNode
  | _, 0 => none
  | [], _ + 1 => none
  | [segment], _ + 1 => some ⟨segment, []⟩
  | segment :: rest, depth + 1 => (chain? rest depth).map fun below => ⟨segment, [below]⟩

/-- Changes the first node with a name. -/
def updateFirst (name : String) (change : PathNode → PathNode) : List PathNode → List PathNode
  | [] => []
  | node :: rest =>
    if node.name == name then change node :: rest else node :: updateFirst name change rest

/-- Grafts a chain onto some siblings: it goes down as long as the names agree, for at most `steps`
nodes, and hangs up the rest of the chain where they part. -/
def graft : Nat → List PathNode → PathNode → List PathNode
  | 0, siblings, _ => siblings
  | steps + 1, siblings, branch =>
    match named? siblings branch.name, branch.children with
    | none, _ => siblings ++ [branch]
    | some _, [] => siblings
    | some _, below :: _ =>
      updateFirst branch.name (fun node => ⟨node.name, graft steps node.children below⟩) siblings

/-- The node that the segments of a path lead to. -/
def find? : List PathNode → List String → Option PathNode
  | _, [] => none
  | nodes, [segment] => named? nodes segment
  | nodes, segment :: rest => (named? nodes segment).bind fun node => find? node.children rest

end PathNode

/-- A path trie, by its top nodes. -/
structure PathTrie where
  branches : List PathNode
deriving Inhabited

namespace PathTrie

/-- The name of the node above the top nodes. -/
def rootName : String := "root"

/-- The node above the top nodes. -/
def root (trie : PathTrie) : PathNode := ⟨rootName, trie.branches⟩

/-- How many nodes a path may share with a trie and still be grafted onto it. -/
def maxGraftSteps : Nat := 99

/-- The trie without any path. -/
def empty : PathTrie := ⟨[]⟩

/-- The trie with one more path. -/
def addPath (trie : PathTrie) (path : String) (maxDepth : Nat) : Except ModelError PathTrie :=
  match PathNode.chain? (Path.segments path) maxDepth with
  | none => .error (.potentialLoop .trie maxDepth)
  | some branch => .ok ⟨PathNode.graft maxGraftSteps trie.branches branch⟩

/-- The trie of some paths, added in order. -/
def ofPaths (paths : List String) (maxDepth : Nat) : Except ModelError PathTrie :=
  paths.foldlM (fun trie path => trie.addPath path maxDepth) empty

/-- The node at a path. -/
def find? (trie : PathTrie) (path : String) : Option PathNode :=
  PathNode.find? trie.branches (Path.segments path)

end PathTrie

end DocModel
