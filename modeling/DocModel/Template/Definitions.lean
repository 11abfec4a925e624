import DocModel.Template.Tree

/-!
What a template defines: blocks, which can be rendered in other places of the template, too, and
routines, which can be called.
-/

namespace DocModel.Template

/-- The blocks of a node list and the blocks that stand in their bodies, with these bodies. A block
inside of any other node does not count. -/
def blocks : List Node → List (String × List Node)
  | [] => []
  | .block _ name body _ :: rest => (name, body) :: (blocks body ++ blocks rest)
  | _ :: rest => blocks rest

/-- A routine of a template. -/
structure Routine where
  name : String
  params : List (String × Option Expr)
  body : List Node

/-- The routines of a node list. -/
def routines (nodes : List Node) : List Routine :=
  nodes.filterMap fun
    | .routine _ name params body _ => some ⟨name, params, body⟩
    | _ => none

/-- Whether the blocks of a node list have different names, and its routines, too. -/
def HasDistinctNames (nodes : List Node) : Prop :=
  ((blocks nodes).map (·.1)).Nodup ∧ ((routines nodes).map (·.name)).Nodup

instance (nodes : List Node) : Decidable (HasDistinctNames nodes) :=
  inferInstanceAs (Decidable (_ ∧ _))

end DocModel.Template
