import DocModel.Json.Value

/-!
Syntax trees of templates: expressions, and the nodes that hold them. Named arguments stand in the
order of their names, each name once.
-/

namespace DocModel.Template

/-- The operations on numbers. -/
inductive Arithmetic where
  | add
  | sub
  | mul
  | div
  | rem
deriving DecidableEq

/-- The operations that yield a truth value. -/
inductive Logical where
  | or
  | and
  | equal
  | notEqual
  | less
  | atMost
  | greater
  | atLeast
deriving DecidableEq

mutual

/-- An operand with the filters behind it, perhaps negated as a whole. -/
inductive Expr where
  | mk (operand : Operand) (filters : List Call) (negated : Bool)

/-- What stands before the filters of an expression. -/
inductive Operand where
  | name (path : String)
  | text (value : String)
  | int (value : Int)
  | real (value : Double)
  | bool (value : Bool)
  | arithmetic (op : Arithmetic) (left right : Expr)
  | logical (op : Logical) (left right : Expr)
  | membership (negated : Bool) (left right : Expr)
  | test (negated : Bool) (subject name : String) (args : List Expr)
  | routineCall (space name : String) (args : List (String × Expr))
  | call (call : Call)
  | array (items : List Expr)
  | concat (parts : List Operand)

/-- A function or filter with named arguments. -/
inductive Call where
  | mk (name : String) (args : List (String × Expr))

end

instance : Inhabited Operand := ⟨.bool false⟩

instance : Inhabited Expr := ⟨.mk default [] false⟩

instance : Inhabited Call := ⟨.mk default []⟩

/-- Whether an operand is the call of a function. -/
def Operand.isCall : Operand → Bool
  | .call _ => true
  | _ => false

/-- An operand as an expression. -/
def Operand.toExpr (operand : Operand) : Expr := .mk operand [] false

def Expr.operand : Expr → Operand
  | .mk operand _ _ => operand

def Expr.filters : Expr → List Call
  | .mk _ filters _ => filters

def Expr.negated : Expr → Bool
  | .mk _ _ negated => negated

/-- The expression with more filters behind it. -/
def Expr.withFilters (e : Expr) (more : List Call) : Expr :=
  .mk e.operand (e.filters ++ more) e.negated

/-- The expression with a negation of the whole, or without one. -/
def Expr.withNegation (e : Expr) (negated : Bool) : Expr :=
  .mk e.operand e.filters negated

def Call.name : Call → String
  | .mk name _ => name

def Call.args : Call → List (String × Expr)
  | .mk _ args => args

/-- The dashes of a tag: whether it trims the text before it and the text behind it. -/
structure Edges where
  before : Bool
  behind : Bool
deriving DecidableEq, Inhabited

namespace Edges

/-- A tag without dashes. -/
def none : Edges := ⟨false, false⟩

end Edges

mutual

/-- A node of a template. Nodes with a body carry the edges of their opening and closing tag. -/
inductive Node where
  | text (text : String)
  | comment (edges : Edges) (text : String)
  | raw (opening : Edges) (text : String) (closing : Edges)
  | output (edges : Edges) (value : Expr)
  | assign (edges : Edges) (name : String) (isGlobal : Bool) (value : Expr)
  | filtered (opening : Edges) (filter : Call) (body : List Node) (closing : Edges)
  | block (opening : Edges) (name : String) (body : List Node) (closing : Edges)
  | loop (opening : Edges) (key : Option String) (value : String) (container : Expr)
      (body : List Node) (otherwise : Option (List Node)) (closing : Edges)
  | choice (branches : List Branch) (otherwise : Option Fallback) (closing : Edges)
  | routine (opening : Edges) (name : String) (params : List (String × Option Expr))
      (body : List Node) (closing : Edges)
  | parentBlock
  | extend (edges : Edges) (name : String)
  | include (edges : Edges) (names : List String) (mayBeMissing : Bool)
  | importRoutines (edges : Edges) (name space : String)
  | leave (edges : Edges)
  | skip (edges : Edges)

/-- A condition of a choice, with the body that belongs to it. -/
inductive Branch where
  | mk (edges : Edges) (condition : Expr) (body : List Node)

/-- The body of a choice for which no condition has to hold. -/
inductive Fallback where
  | mk (edges : Edges) (body : List Node)

end

instance : Inhabited Node := ⟨.parentBlock⟩

instance : Inhabited Branch := ⟨.mk default default []⟩

end DocModel.Template
