import DocModel.Directive.Reading
import DocModel.Path
import DocModel.Sorting
import DocModel.Template.Tree

/-!
What a template says about its data. A walk over the syntax tree yields, in source order, the
comments, the texts, and the names that refer to data. A name that the template binds itself does
not: the names of a loop within its body, the parameters of a routine within its body and in the
defaults of later parameters, and an assigned name behind its assignment, up to the end of the node
list in which the assignment stands. Named arguments and parameters are visited in the order of their
names.
-/

namespace DocModel.Template

/-- What a walk finds. -/
inductive Finding where
  | comment (text : String)
  | text (text : String)
  | name (path : String)
deriving DecidableEq

/-- The names that the template binds at some place. -/
abbrev Scope := List String

namespace Scope

/-- Names that the engine provides. -/
def engineNames : List String := ["loop", "__tera_context", "super"]

/-- The part of a name up to its first dot or subscript. -/
def head (path : String) : String :=
  String.ofList (path.toList.takeWhile fun c => c ≠ '.' && c ≠ '[')

/-- A name is its head and what stands behind it: nothing, or a dot or a subscript. -/
theorem head_eq_iff {path first : String} : head path = first ↔ ∃ rest,
    path.toList = first.toList ++ rest ∧ (∀ c ∈ first.toList, c ≠ '.' ∧ c ≠ '[') ∧
      ∀ c ∈ rest.head?, c = '.' ∨ c = '[' := by
  have inside_iff (c : Char) : (c ≠ '.' && c ≠ '[') = true ↔ c ≠ '.' ∧ c ≠ '[' := by simp
  constructor
  · rintro rfl
    refine ⟨path.toList.dropWhile fun c => c ≠ '.' && c ≠ '[', ?_, fun c hc => ?_, fun c hc => ?_⟩
    · rw [head, String.toList_ofList, List.takeWhile_append_dropWhile]
    · rw [head, String.toList_ofList] at hc
      exact (inside_iff c).mp (List.all_eq_true.mp List.all_takeWhile c hc)
    · have hstop : (c ≠ '.' && c ≠ '[') = false := by
        have hhead := List.head?_dropWhile_not (fun c => c ≠ '.' && c ≠ '[') path.toList
        rwa [Option.mem_def.mp hc] at hhead
      refine Decidable.or_iff_not_not_and_not.mpr fun hinside => ?_
      rw [(inside_iff c).mpr hinside] at hstop
      cases hstop
  · rintro ⟨rest, hpath, hfirst, hrest⟩
    have hstop : (rest.takeWhile fun c => c ≠ '.' && c ≠ '[') = [] := by
      cases rest with
      | nil => rfl
      | cons c rest =>
        have hc := Decidable.or_iff_not_not_and_not.mp (hrest c rfl)
        exact List.takeWhile_cons_of_neg fun hinside => hc ((inside_iff c).mp hinside)
    rw [head, hpath, List.takeWhile_append_of_pos fun c hc => (inside_iff c).mpr (hfirst c hc), hstop,
      List.append_nil, String.ofList_toList]

/-- Whether a name is bound by the engine or by the template. -/
def binds (scope : Scope) (path : String) : Bool :=
  engineNames.contains (head path) || scope.contains (head path)

/-- The scope with the names of a loop. -/
def withLoop (scope : Scope) (key : Option String) (value : String) : Scope :=
  value :: (key.toList ++ scope)

end Scope

/-- Named things in the order of their names. -/
def inNameOrder {α : Type} (named : List (String × α)) : List (String × α) :=
  stableSort (fun a b => !decide (b.1 < a.1)) named

/-- A name, when it refers to data. -/
def walkName (scope : Scope) (path : String) : List Finding :=
  if scope.binds path then [] else [.name path]

mutual

def walkExpr (scope : Scope) : Expr → List Finding
  | .mk operand filters _ => walkOperand scope operand ++ walkCalls scope filters

def walkOperand (scope : Scope) : Operand → List Finding
  | .name path => walkName scope path
  | .arithmetic _ left right => walkExpr scope left ++ walkExpr scope right
  | .logical _ left right => walkExpr scope left ++ walkExpr scope right
  | .membership _ left right => walkExpr scope left ++ walkExpr scope right
  | .test _ subject _ args => walkName scope subject ++ walkExprs scope args
  | .routineCall _ _ args => (inNameOrder (walkArgs scope args)).flatMap (·.2)
  | .call call => walkCall scope call
  | .array items => walkExprs scope items
  | .concat parts => walkOperands scope parts
  | .text _ | .int _ | .real _ | .bool _ => []

/-- The name of a function or filter is not data, but its arguments may be. -/
def walkCall (scope : Scope) : Call → List Finding
  | .mk _ args => (inNameOrder (walkArgs scope args)).flatMap (·.2)

def walkCalls (scope : Scope) : List Call → List Finding
  | [] => []
  | call :: rest => walkCall scope call ++ walkCalls scope rest

def walkExprs (scope : Scope) : List Expr → List Finding
  | [] => []
  | e :: rest => walkExpr scope e ++ walkExprs scope rest

def walkOperands (scope : Scope) : List Operand → List Finding
  | [] => []
  | operand :: rest => walkOperand scope operand ++ walkOperands scope rest

/-- What each argument says, under its name. -/
def walkArgs (scope : Scope) : List (String × Expr) → List (String × List Finding)
  | [] => []
  | (name, e) :: rest => (name, walkExpr scope e) :: walkArgs scope rest

end

/-- The defaults of parameters, each in the scope of the parameters before it, and the scope of
all. -/
def walkParams (scope : Scope) : List (String × Option Expr) → List Finding × Scope
  | [] => ([], scope)
  | (name, default) :: rest =>
    let own := match default with
      | some e => walkExpr scope e
      | none => []
    let (more, inner) := walkParams (name :: scope) rest
    (own ++ more, inner)

/-- The scope behind a node: an assignment binds its name, and no other node binds any. -/
def scopeBehind (scope : Scope) : Node → Scope
  | .assign _ name _ _ => name :: scope
  | _ => scope

mutual

def walkNode (scope : Scope) : Node → List Finding
  | .text text => [.text text]
  | .comment _ text => [.comment text]
  | .output _ value => walkExpr scope value
  | .assign _ _ _ value => walkExpr scope value
  | .filtered _ filter body _ => walkCall scope filter ++ walkNodes scope body
  | .block _ _ body _ => walkNodes scope body
  | .loop _ key value container body otherwise _ =>
    walkExpr scope container ++ walkNodes (scope.withLoop key value) body ++
      (match otherwise with
      | some nodes => walkNodes scope nodes
      | none => [])
  | .choice branches otherwise _ =>
    walkBranches scope branches ++
      (match otherwise with
      | some fallback => walkFallback scope fallback
      | none => [])
  | .routine _ _ params body _ =>
    (walkParams scope (inNameOrder params)).1 ++
      walkNodes (walkParams scope (inNameOrder params)).2 body
  | .raw .. | .parentBlock | .extend .. | .include .. | .importRoutines .. | .leave _ | .skip _ =>
    []

/-- A node list. Each node is walked in the scope that the nodes before it leave. -/
def walkNodes (scope : Scope) : List Node → List Finding
  | [] => []
  | node :: rest => walkNode scope node ++ walkNodes (scopeBehind scope node) rest

def walkBranches (scope : Scope) : List Branch → List Finding
  | [] => []
  | .mk _ condition body :: rest =>
    walkExpr scope condition ++ walkNodes scope body ++ walkBranches scope rest

def walkFallback (scope : Scope) : Fallback → List Finding
  | .mk _ body => walkNodes scope body

end

/-- Everything that a template says, in source order. -/
def findings (nodes : List Node) : List Finding :=
  walkNodes [] nodes

def Finding.comment? : Finding → Option String
  | .comment s => some s
  | _ => none

def Finding.text? : Finding → Option String
  | .text s => some s
  | _ => none

def Finding.name? : Finding → Option String
  | .name s => some s
  | _ => none

/-- The comments of a template. -/
def comments (nodes : List Node) : List String :=
  (findings nodes).filterMap Finding.comment?

/-- The literal texts of a template. -/
def texts (nodes : List Node) : List String :=
  (findings nodes).filterMap Finding.text?

/-- The directives of a template. -/
def directives (nodes : List Node) (strict : Bool) : Except ModelError (List Directive) :=
  Directive.parseAll (comments nodes) strict

/-- The data path that a name stands for, if it stands for one. -/
def pathOfName? (name : String) : Option String :=
  if Path.isReserved name then none
  else
    let path := Path.clean name
    if path = "" then none else some path

/-- The data paths of a template, each at its first occurrence. -/
def paths (nodes : List Node) : List String :=
  (((findings nodes).filterMap Finding.name?).filterMap pathOfName?).eraseDups

end DocModel.Template
