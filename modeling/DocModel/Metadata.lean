import DocModel.Field
import DocModel.Sorting
import DocModel.Trie

/-!
Metadata models: the nodes of a path trie with what the fields of their paths say. A node is
required when its field says so, or when it has children and all of them are required. Siblings
stand in the order of their fields.
-/

namespace DocModel

/-- A node of a metadata model. -/
structure MetadataNode where
  type : FieldType
  name : String
  label : Option String
  hint : Option String
  descr : Option String
  min : Option Bound
  max : Option Bound
  minLength : Option Nat
  maxLength : Option Nat
  order : Option Int
  options : Option (List FieldOption)
  isRequired : Bool
  /-- The whole path of the node. -/
  fieldName : String
  children : List MetadataNode

namespace MetadataNode

/-- The place of a node among its siblings: the order that its field declares, and the place of the
field among all fields. -/
structure Rank where
  order : Option Int
  absolute : Option Int

/-- Compares two ranks of one kind; a missing one comes after any other. -/
def compareLast : Option Int → Option Int → Ordering
  | none, none => .eq
  | none, some _ => .gt
  | some _, none => .lt
  | some a, some b => compare a b

def Rank.compare (a b : Rank) : Ordering :=
  (compareLast a.order b.order).then (compareLast a.absolute b.absolute)

/-- The rank of a node, from the field that counts for its path. -/
def rank (fields : List Field) (node : MetadataNode) : Rank :=
  let field := Field.last? fields node.fieldName
  ⟨field.bind (·.order), (field.bind (·.absoluteOrder)).map Int.ofNat⟩

/-- Whether a node may stand before another one. -/
def precedes (fields : List Field) (a b : MetadataNode) : Bool :=
  (a.rank fields).compare (b.rank fields) != .gt

/-- Siblings in the order of their ranks; those of one rank stay in the order of the trie. -/
def sortSiblings (fields : List Field) (nodes : List MetadataNode) : List MetadataNode :=
  stableSort (precedes fields) nodes

/-- A node from what its field says and from its children. A node with children is an object. -/
def ofField (field : Option Field) (name fieldName : String) (children : List MetadataNode) :
    MetadataNode where
  type := if children.isEmpty then (field.map (·.type)).getD .string else .object
  name := name
  label := field.bind (·.label)
  hint := field.bind (·.hint)
  descr := field.bind (·.descr)
  min := field.bind (·.min)
  max := field.bind (·.max)
  minLength := field.bind (·.minLength)
  maxLength := field.bind (·.maxLength)
  order := field.bind (·.order)
  options := field.bind (·.options)
  isRequired :=
    field.any (·.isRequired) || (!children.isEmpty && children.all (·.isRequired))
  fieldName := fieldName
  children := children

/-- The node of a trie node with the given path. Every level takes one from the depth that is left;
with none left the trie is too deep. -/
def decorate (fields : List Field) (maxDepth : Nat) :
    Nat → String → PathNode → Except ModelError MetadataNode
  | 0, _, _ => .error (.potentialLoop .metadata maxDepth)
  | depth + 1, fieldName, node => do
    let children ← node.children.mapM fun child =>
      decorate fields maxDepth depth (fieldName ++ "." ++ child.name) child
    return ofField (Field.last? fields fieldName) node.name fieldName
      (sortSiblings fields children)

/-- The metadata model of a trie, without the branches that are named like a helper. -/
def model (trie : PathTrie) (fields : List Field) (helpers : List String) (maxDepth : Nat) :
    Except ModelError (List MetadataNode) := do
  let branches := trie.branches.filter fun branch => !helpers.contains branch.name
  let nodes ← branches.mapM fun branch =>
    decorate fields maxDepth maxDepth branch.name branch
  return sortSiblings fields nodes

/-- The first node with a name. -/
def named? (nodes : List MetadataNode) (name : String) : Option MetadataNode :=
  nodes.find? (·.name == name)

/-- The node that some segments lead to. -/
def findSegments? : List MetadataNode → List String → Option MetadataNode
  | _, [] => none
  | nodes, [segment] => named? nodes segment
  | nodes, segment :: rest =>
    (named? nodes segment).bind fun node => findSegments? node.children rest

/-- The node of a model at a path. -/
def find? (model : List MetadataNode) (path : String) : Option MetadataNode :=
  findSegments? model (Path.segments path)

end MetadataNode

end DocModel
