import DocModel.Proofs.Sorting
import DocModel.Template.Walk
import Mathlib.Data.List.Induction

/-!
Which names of a template are data. Every occurrence of a name is listed together with the constructs
around it; it is free when none of these, and not the engine, binds its head. The walk finds the free
occurrences and no others, so that the data paths of a template are those of its free occurrences.
-/

namespace DocModel.Template

theorem isSortOrder_names {α : Type} :
    IsSortOrder fun a b : String × α => !decide (b.1 < a.1) := by
  constructor
  case total =>
    intro a b
    simp only [Bool.not_eq_true', decide_eq_false_iff_not, String.not_lt]
    exact String.le_total a.1 b.1
  case trans =>
    intro a b c hab hbc
    simp only [Bool.not_eq_true', decide_eq_false_iff_not, String.not_lt] at hab hbc ⊢
    exact String.le_trans hab hbc

theorem pairwise_inNameOrder {α : Type} (named : List (String × α)) :
    (inNameOrder named).Pairwise fun a b => ¬ b.1 < a.1 :=
  (isSortOrder_names.pairwise_stableSort named).imp fun hle =>
    of_decide_eq_false (Bool.not_eq_true' _ |>.mp hle)

theorem inNameOrder_perm {α : Type} (named : List (String × α)) :
    (inNameOrder named).Perm named :=
  stableSort_perm _ named

theorem inNameOrder_inNameOrder {α : Type} (named : List (String × α)) :
    inNameOrder (inNameOrder named) = inNameOrder named :=
  stableSort_eq_self (isSortOrder_names.pairwise_stableSort named)

/-- What is changed under the names does not change their order. -/
theorem inNameOrder_map {α β : Type} (f : α → β) (named : List (String × α)) :
    inNameOrder (named.map (Prod.map id f)) = (inNameOrder named).map (Prod.map id f) :=
  (map_stableSort (Prod.map id f) (fun a b => !decide (b.1 < a.1)) named).symm

/-- A construct that may bind names at a place inside of it. -/
inductive Enclosure where
  /-- A node list, in which some nodes stand before the place. -/
  | nodeList (before : List Node)
  /-- The body of a loop with the given names for keys and values. -/
  | loopBody (key : Option String) (value : String)
  /-- The default of a parameter; some parameters come before it in the order of the names. -/
  | default (before : List (String × Option Expr))
  /-- The body of a routine with some parameters. -/
  | routineBody (params : List (String × Option Expr))

def Node.assignedName? : Node → Option String
  | .assign _ name _ _ => some name
  | _ => none

/-- The names that a construct binds at the place inside of it. -/
def Enclosure.binds : Enclosure → List String
  | .nodeList before => before.filterMap Node.assignedName?
  | .loopBody key value => key.toList ++ [value]
  | .default before => before.map (·.1)
  | .routineBody params => params.map (·.1)

/-- An occurrence of a name in a template, with the constructs around it, the outermost first. -/
structure Occurrence where
  around : List Enclosure
  name : String

namespace Occurrence

/-- The same occurrence in a template in which one more construct is around everything. -/
def within (enclosure : Enclosure) (occurrence : Occurrence) : Occurrence :=
  ⟨enclosure :: occurrence.around, occurrence.name⟩

/-- Neither the engine nor a construct around the occurrence binds the head of its name. -/
def IsFree (occurrence : Occurrence) : Prop :=
  Scope.head occurrence.name ∉ Scope.engineNames ∧
    ∀ enclosure ∈ occurrence.around, Scope.head occurrence.name ∉ enclosure.binds

instance : DecidablePred IsFree := fun _ => inferInstanceAs (Decidable (_ ∧ _))

end Occurrence

mutual

/-- The names in an expression. No part of an expression binds any. -/
def namesInExpr : Expr → List String
  | .mk operand filters _ => namesInOperand operand ++ namesInCalls filters

def namesInOperand : Operand → List String
  | .name path => [path]
  | .arithmetic _ left right => namesInExpr left ++ namesInExpr right
  | .logical _ left right => namesInExpr left ++ namesInExpr right
  | .membership _ left right => namesInExpr left ++ namesInExpr right
  | .test _ subject _ args => subject :: namesInExprs args
  | .routineCall _ _ args => (inNameOrder (namesInArgs args)).flatMap (·.2)
  | .call call => namesInCall call
  | .array items => namesInExprs items
  | .concat parts => namesInOperands parts
  | .text _ | .int _ | .real _ | .bool _ => []

def namesInCall : Call → List String
  | .mk _ args => (inNameOrder (namesInArgs args)).flatMap (·.2)

def namesInCalls : List Call → List String
  | [] => []
  | call :: rest => namesInCall call ++ namesInCalls rest

def namesInExprs : List Expr → List String
  | [] => []
  | e :: rest => namesInExpr e ++ namesInExprs rest

def namesInOperands : List Operand → List String
  | [] => []
  | operand :: rest => namesInOperand operand ++ namesInOperands rest

def namesInArgs : List (String × Expr) → List (String × List String)
  | [] => []
  | (name, e) :: rest => (name, namesInExpr e) :: namesInArgs rest

end

/-- Names around which nothing has been found so far. -/
def bare (names : List String) : List Occurrence := names.map (Occurrence.mk [])

/-- The occurrences in the defaults of some parameters. -/
def occurrencesInDefaults (before : List (String × Option Expr)) :
    List (String × Option Expr) → List Occurrence
  | [] => []
  | param :: rest =>
    (bare (param.2.elim [] namesInExpr)).map (Occurrence.within (.default before)) ++
      occurrencesInDefaults (before ++ [param]) rest

mutual

/-- The occurrences in a node, in source order, with what is around them inside of the node. -/
def occurrencesInNode : Node → List Occurrence
  | .output _ value => bare (namesInExpr value)
  | .assign _ _ _ value => bare (namesInExpr value)
  | .filtered _ filter body _ => bare (namesInCall filter) ++ occurrencesFrom [] body
  | .block _ _ body _ => occurrencesFrom [] body
  | .loop _ key value container body otherwise _ =>
    bare (namesInExpr container) ++
      (occurrencesFrom [] body).map (Occurrence.within (.loopBody key value)) ++
        (match otherwise with
        | some nodes => occurrencesFrom [] nodes
        | none => [])
  | .choice branches otherwise _ =>
    occurrencesInBranches branches ++
      (match otherwise with
      | some fallback => occurrencesInFallback fallback
      | none => [])
  | .routine _ _ params body _ =>
    occurrencesInDefaults [] (inNameOrder params) ++
      (occurrencesFrom [] body).map (Occurrence.within (.routineBody params))
  | .text _ | .comment .. | .raw .. | .parentBlock | .extend .. | .include .. |
    .importRoutines .. | .leave _ | .skip _ => []

/-- The occurrences in a node list behind some nodes of the list. -/
def occurrencesFrom (before : List Node) : List Node → List Occurrence
  | [] => []
  | node :: rest =>
    (occurrencesInNode node).map (Occurrence.within (.nodeList before)) ++
      occurrencesFrom (before ++ [node]) rest

def occurrencesInBranches : List Branch → List Occurrence
  | [] => []
  | .mk _ condition body :: rest =>
    bare (namesInExpr condition) ++ occurrencesFrom [] body ++ occurrencesInBranches rest

def occurrencesInFallback : Fallback → List Occurrence
  | .mk _ body => occurrencesFrom [] body

end

/-- All occurrences of names in a template, in source order. -/
def occurrences (nodes : List Node) : List Occurrence := occurrencesFrom [] nodes

mutual

theorem walkExpr_eq (scope : Scope) : ∀ e,
    walkExpr scope e = (namesInExpr e).flatMap (walkName scope)
  | .mk operand filters _ => by
    rw [walkExpr, namesInExpr, walkOperand_eq, walkCalls_eq, List.flatMap_append]

theorem walkOperand_eq (scope : Scope) : ∀ operand,
    walkOperand scope operand = (namesInOperand operand).flatMap (walkName scope)
  | .name path => by simp [walkOperand, namesInOperand]
  | .arithmetic _ left right | .logical _ left right | .membership _ left right => by
    rw [walkOperand, namesInOperand, walkExpr_eq, walkExpr_eq, List.flatMap_append]
  | .test _ subject _ args => by
    rw [walkOperand, namesInOperand, walkExprs_eq, List.flatMap_cons]
  | .routineCall _ _ args => by
    rw [walkOperand, namesInOperand, walkArgs_eq, inNameOrder_map]
    simp [List.flatMap_map, List.flatMap_assoc]
  | .call call => by rw [walkOperand, namesInOperand, walkCall_eq]
  | .array items => by rw [walkOperand, namesInOperand, walkExprs_eq]
  | .concat parts => by rw [walkOperand, namesInOperand, walkOperands_eq]
  | .text _ | .int _ | .real _ | .bool _ => by simp [walkOperand, namesInOperand]

theorem walkCall_eq (scope : Scope) : ∀ call,
    walkCall scope call = (namesInCall call).flatMap (walkName scope)
  | .mk _ args => by
    rw [walkCall, namesInCall, walkArgs_eq, inNameOrder_map]
    simp [List.flatMap_map, List.flatMap_assoc]

theorem walkCalls_eq (scope : Scope) : ∀ calls,
    walkCalls scope calls = (namesInCalls calls).flatMap (walkName scope)
  | [] => by simp [walkCalls, namesInCalls]
  | call :: rest => by
    rw [walkCalls, namesInCalls, walkCall_eq, walkCalls_eq, List.flatMap_append]

theorem walkExprs_eq (scope : Scope) : ∀ es,
    walkExprs scope es = (namesInExprs es).flatMap (walkName scope)
  | [] => by simp [walkExprs, namesInExprs]
  | e :: rest => by
    rw [walkExprs, namesInExprs, walkExpr_eq, walkExprs_eq, List.flatMap_append]

theorem walkOperands_eq (scope : Scope) : ∀ operands,
    walkOperands scope operands = (namesInOperands operands).flatMap (walkName scope)
  | [] => by simp [walkOperands, namesInOperands]
  | operand :: rest => by
    rw [walkOperands, namesInOperands, walkOperand_eq, walkOperands_eq, List.flatMap_append]

theorem walkArgs_eq (scope : Scope) : ∀ args,
    walkArgs scope args =
      (namesInArgs args).map (Prod.map id fun names => names.flatMap (walkName scope))
  | [] => by simp [walkArgs, namesInArgs]
  | (name, e) :: rest => by
    rw [walkArgs, namesInArgs, walkExpr_eq, walkArgs_eq, List.map_cons, Prod.map_apply, id]

end

/-- The names among some findings. -/
def namesFound (findings : List Finding) : List String := findings.filterMap Finding.name?

theorem namesFound_append (findings more : List Finding) :
    namesFound (findings ++ more) = namesFound findings ++ namesFound more :=
  List.filterMap_append

namespace Occurrence

/-- The occurrence is free, also when the given names are bound around the whole template. -/
def IsFreeIn (scope : Scope) (occurrence : Occurrence) : Prop :=
  occurrence.IsFree ∧ Scope.head occurrence.name ∉ scope

instance (scope : Scope) : DecidablePred (IsFreeIn scope) := fun _ =>
  inferInstanceAs (Decidable (_ ∧ _))

/-- A construct around an occurrence does as much as a scope that has the construct's names as well. -/
theorem isFreeIn_within {enclosure : Enclosure} {scope inner : Scope}
    (hinner : ∀ x, x ∈ inner ↔ x ∈ enclosure.binds ∨ x ∈ scope) (occurrence : Occurrence) :
    (occurrence.within enclosure).IsFreeIn scope ↔ occurrence.IsFreeIn inner := by
  simp only [IsFreeIn, IsFree, within, List.forall_mem_cons, hinner]
  tauto

end Occurrence

/-- The names of the occurrences that are free in a scope. -/
def freeNames (scope : Scope) (found : List Occurrence) : List String :=
  (found.filter fun occurrence => occurrence.IsFreeIn scope).map (·.name)

theorem freeNames_append (scope : Scope) (found more : List Occurrence) :
    freeNames scope (found ++ more) = freeNames scope found ++ freeNames scope more := by
  simp [freeNames]

theorem freeNames_within {enclosure : Enclosure} {scope inner : Scope}
    (hinner : ∀ x, x ∈ inner ↔ x ∈ enclosure.binds ∨ x ∈ scope) (found : List Occurrence) :
    freeNames scope (found.map (Occurrence.within enclosure)) = freeNames inner found := by
  simp only [freeNames, List.filter_map, List.map_map, Function.comp_def,
    Occurrence.isFreeIn_within hinner]
  rfl

theorem binds_eq_false_iff {scope : Scope} {name : String} :
    scope.binds name = false ↔ (Occurrence.mk [] name).IsFreeIn scope := by
  simp [Scope.binds, Occurrence.IsFreeIn, Occurrence.IsFree]

theorem namesFound_flatMap_walkName (scope : Scope) (names : List String) :
    namesFound (names.flatMap (walkName scope)) = freeNames scope (bare names) := by
  induction names with
  | nil => rfl
  | cons name rest ih =>
    have hname : namesFound (walkName scope name) = freeNames scope (bare [name]) := by
      rw [walkName]
      cases hbinds : scope.binds name with
      | true =>
        have hbound : ¬ (Occurrence.mk [] name).IsFreeIn scope := by
          rw [← binds_eq_false_iff, hbinds]
          exact Bool.noConfusion
        simp [freeNames, bare, hbound, namesFound]
      | false => simp [freeNames, bare, binds_eq_false_iff.mp hbinds, namesFound, Finding.name?]
    rw [List.flatMap_cons, namesFound_append, hname, ih, ← freeNames_append]
    rfl

theorem namesFound_walkExpr (scope : Scope) (e : Expr) :
    namesFound (walkExpr scope e) = freeNames scope (bare (namesInExpr e)) := by
  rw [walkExpr_eq, namesFound_flatMap_walkName]

theorem namesFound_walkCall (scope : Scope) (call : Call) :
    namesFound (walkCall scope call) = freeNames scope (bare (namesInCall call)) := by
  rw [walkCall_eq, namesFound_flatMap_walkName]

/-- A default is walked in the scope of the parameters before its own. -/
theorem namesFound_walkParams {before : List (String × Option Expr)} {scope inner : Scope}
    (hinner : ∀ x, x ∈ inner ↔ x ∈ (Enclosure.default before).binds ∨ x ∈ scope)
    (params : List (String × Option Expr)) :
    namesFound (walkParams inner params).1 =
      freeNames scope (occurrencesInDefaults before params) := by
  induction params generalizing before inner with
  | nil => rfl
  | cons param rest ih =>
    obtain ⟨name, default⟩ := param
    have hnext : ∀ x, x ∈ name :: inner ↔
        x ∈ (Enclosure.default (before ++ [(name, default)])).binds ∨ x ∈ scope := by
      intro x
      simp only [List.mem_cons, hinner, Enclosure.binds, List.map_append, List.mem_append,
        List.map_cons, List.map_nil, List.not_mem_nil, or_false]
      tauto
    have hown : namesFound (default.elim [] (walkExpr inner)) =
        freeNames inner (bare (default.elim [] namesInExpr)) := by
      cases default with
      | none => rfl
      | some e => exact namesFound_walkExpr inner e
    rw [occurrencesInDefaults, freeNames_append, freeNames_within hinner, ← hown, ← ih hnext,
      ← namesFound_append]
    cases default <;> rfl

theorem mem_walkParams_scope {x : String} {scope : Scope} {params : List (String × Option Expr)} :
    x ∈ (walkParams scope params).2 ↔ x ∈ params.map (·.1) ∨ x ∈ scope := by
  induction params generalizing scope with
  | nil => simp [walkParams]
  | cons param rest ih =>
    simp only [walkParams, ih, List.map_cons, List.mem_cons]
    tauto

theorem mem_scope_of_routineBody {x : String} (scope : Scope)
    (params : List (String × Option Expr)) :
    x ∈ (walkParams scope (inNameOrder params)).2 ↔
      x ∈ (Enclosure.routineBody params).binds ∨ x ∈ scope := by
  rw [mem_walkParams_scope, Enclosure.binds, ((inNameOrder_perm params).map _).mem_iff]

theorem mem_withLoop {x : String} (scope : Scope) (key : Option String) (value : String) :
    x ∈ scope.withLoop key value ↔ x ∈ (Enclosure.loopBody key value).binds ∨ x ∈ scope := by
  simp only [Scope.withLoop, Enclosure.binds, List.mem_cons, List.mem_append, List.not_mem_nil,
    or_false]
  tauto

theorem mem_scopeBehind {x : String} {inner scope : Scope} {before : List Node}
    (hinner : x ∈ inner ↔ x ∈ (Enclosure.nodeList before).binds ∨ x ∈ scope) (node : Node) :
    x ∈ scopeBehind inner node ↔
      x ∈ (Enclosure.nodeList (before ++ [node])).binds ∨ x ∈ scope := by
  have hbinds : x ∈ (Enclosure.nodeList (before ++ [node])).binds ↔
      x ∈ (Enclosure.nodeList before).binds ∨ node.assignedName? = some x := by
    cases hassigned : node.assignedName? <;>
      simp [Enclosure.binds, List.filterMap_append, hassigned, eq_comm]
  rw [hbinds]
  cases node with
  | assign edges name isGlobal value =>
    simp only [scopeBehind, Node.assignedName?, List.mem_cons, hinner, Option.some.injEq]
    tauto
  | _ => simp [scopeBehind, Node.assignedName?, hinner]

theorem mem_nodeList_nil {x : String} (scope : Scope) :
    x ∈ scope ↔ x ∈ (Enclosure.nodeList []).binds ∨ x ∈ scope := by
  simp [Enclosure.binds]

theorem mem_default_nil {x : String} (scope : Scope) :
    x ∈ scope ↔ x ∈ (Enclosure.default []).binds ∨ x ∈ scope := by
  simp [Enclosure.binds]

/-- The scope behind some nodes of a list. -/
def Scope.behind (scope : Scope) (before : List Node) : Scope := before.foldl scopeBehind scope

theorem mem_behind {x : String} {scope : Scope} {before : List Node} :
    x ∈ scope.behind before ↔ x ∈ (Enclosure.nodeList before).binds ∨ x ∈ scope := by
  induction before using List.reverseRecOn with
  | nil => exact mem_nodeList_nil scope
  | append_singleton before node ih =>
    rw [Scope.behind, List.foldl_append, ← Scope.behind]
    exact mem_scopeBehind ih node

theorem walkNodes_append (scope : Scope) (before after : List Node) :
    walkNodes scope (before ++ after) =
      walkNodes scope before ++ walkNodes (scope.behind before) after := by
  induction before generalizing scope with
  | nil =>
    rw [walkNodes]
    rfl
  | cons node rest ih =>
    rw [List.cons_append, walkNodes, ih, walkNodes, List.append_assoc]
    rfl

-- The induction follows the tree. What it carries is that the scope of the walk has exactly the names
-- that are bound by the constructs met so far or around everything.
mutual

/-- The walk of a node finds the names that occur freely in it. -/
theorem namesFound_walkNode (scope : Scope) : ∀ node,
    namesFound (walkNode scope node) = freeNames scope (occurrencesInNode node)
  | .output _ value | .assign _ _ _ value => by
    rw [walkNode, occurrencesInNode, namesFound_walkExpr]
  | .filtered _ filter body _ => by
    have hbody := namesFound_walkNodes (fun _ => mem_nodeList_nil scope) body
    rw [walkNode, occurrencesInNode, namesFound_append, freeNames_append, namesFound_walkCall, hbody]
  | .block _ _ body _ => by
    have hbody := namesFound_walkNodes (fun _ => mem_nodeList_nil scope) body
    rw [walkNode, occurrencesInNode, hbody]
  | .loop _ key value container body otherwise _ => by
    have hbody := namesFound_walkNodes
      (fun _ => mem_nodeList_nil (scope.withLoop key value)) body
    unfold walkNode occurrencesInNode
    rw [namesFound_append, namesFound_append, freeNames_append, freeNames_append,
      namesFound_walkExpr, hbody, freeNames_within fun _ => mem_withLoop scope key value]
    congr 1
    cases otherwise with
    | none => rfl
    | some nodes => exact namesFound_walkNodes (fun _ => mem_nodeList_nil scope) nodes
  | .choice branches otherwise _ => by
    unfold walkNode occurrencesInNode
    rw [namesFound_append, freeNames_append, namesFound_walkBranches]
    congr 1
    cases otherwise with
    | none => rfl
    | some fallback => exact namesFound_walkFallback scope fallback
  | .routine _ _ params body _ => by
    have hparams := namesFound_walkParams (fun _ => mem_default_nil scope) (inNameOrder params)
    have hbody := namesFound_walkNodes
      (fun _ => mem_nodeList_nil (walkParams scope (inNameOrder params)).2) body
    rw [walkNode, occurrencesInNode, namesFound_append, freeNames_append, hparams, hbody,
      freeNames_within fun _ => mem_scope_of_routineBody scope params]
  | .text _ | .comment .. | .raw .. | .parentBlock | .extend .. | .include .. |
    .importRoutines .. | .leave _ | .skip _ => by
    simp [walkNode, occurrencesInNode, namesFound, freeNames, Finding.name?]

/-- Behind some nodes of a list the walk has in scope what these assign. -/
theorem namesFound_walkNodes {before : List Node} {scope inner : Scope}
    (hinner : ∀ x, x ∈ inner ↔ x ∈ (Enclosure.nodeList before).binds ∨ x ∈ scope) : ∀ nodes,
    namesFound (walkNodes inner nodes) = freeNames scope (occurrencesFrom before nodes)
  | [] => by simp [walkNodes, occurrencesFrom, namesFound, freeNames]
  | node :: rest => by
    have hrest := namesFound_walkNodes (fun x => mem_scopeBehind (hinner x) node) rest
    rw [walkNodes, occurrencesFrom, namesFound_append, freeNames_append, hrest,
      namesFound_walkNode, freeNames_within hinner]

theorem namesFound_walkBranches (scope : Scope) : ∀ branches,
    namesFound (walkBranches scope branches) = freeNames scope (occurrencesInBranches branches)
  | [] => by simp [walkBranches, occurrencesInBranches, namesFound, freeNames]
  | .mk _ condition body :: rest => by
    have hbody := namesFound_walkNodes (fun _ => mem_nodeList_nil scope) body
    rw [walkBranches, occurrencesInBranches, namesFound_append, namesFound_append,
      freeNames_append, freeNames_append, namesFound_walkExpr, hbody, namesFound_walkBranches]

theorem namesFound_walkFallback (scope : Scope) : ∀ fallback,
    namesFound (walkFallback scope fallback) = freeNames scope (occurrencesInFallback fallback)
  | .mk _ body => by
    have hbody := namesFound_walkNodes (fun _ => mem_nodeList_nil scope) body
    rw [walkFallback, occurrencesInFallback, hbody]

end

theorem namesFound_findings (nodes : List Node) :
    namesFound (findings nodes) =
      ((occurrences nodes).filter fun occurrence => occurrence.IsFree).map (·.name) := by
  rw [findings, occurrences, namesFound_walkNodes (fun _ => mem_nodeList_nil []) nodes, freeNames]
  simp [Occurrence.IsFreeIn]

theorem filterMap_pathOfName? (names : List String) :
    names.filterMap pathOfName? =
      ((names.filter fun name => !Path.isReserved name).map Path.clean).filter (· ≠ "") := by
  induction names with
  | nil => rfl
  | cons name rest ih =>
    rw [List.filterMap_cons, pathOfName?, ih]
    cases hreserved : Path.isReserved name with
    | true => simp [hreserved]
    | false => by_cases hempty : Path.clean name = "" <;> simp [hreserved, hempty]

theorem paths_eq_filterMap (nodes : List Node) :
    paths nodes = ((((occurrences nodes).filter fun occurrence => occurrence.IsFree).map (·.name)
      |>.filterMap pathOfName?).eraseDups) := by
  rw [paths, ← namesFound, namesFound_findings]

theorem mem_paths_iff {path : String} {nodes : List Node} :
    path ∈ paths nodes ↔ ∃ occurrence ∈ occurrences nodes, occurrence.IsFree ∧
      pathOfName? occurrence.name = some path := by
  simp [paths_eq_filterMap, List.mem_eraseDups, and_assoc]

theorem pathOfName?_eq_some_iff {name path : String} :
    pathOfName? name = some path ↔
      Path.isReserved name = false ∧ Path.clean name ≠ "" ∧ Path.clean name = path := by
  rw [pathOfName?]
  cases Path.isReserved name <;> simp

/-- The data paths of a template are the free occurrences of names in it, in source order, without those
that refer to the engine, cleaned, without the empty ones, and each at its first place only. -/
theorem paths_eq_free_occurrences (nodes : List Node) :
    paths nodes =
      ((occurrences nodes).filter (fun occurrence => occurrence.IsFree)
        |>.map (·.name)
        |>.filter (fun name => !Path.isReserved name)
        |>.map Path.clean
        |>.filter (· ≠ "")
        |>.eraseDups) := by
  rw [paths, ← namesFound, namesFound_findings, filterMap_pathOfName?]

/-- A name that a loop binds is data behind the loop, and so is what is assigned in its body. -/
example :
    let name (path : String) : Expr := .mk (.name path) [] false
    let body : List Node := [.assign .none "sum" false (name "row.cost"), .output .none (name "sum"),
      .output .none (name "rate")]
    paths [.loop .none none "row" (name "rows") body none .none, .output .none (name "sum.net"),
      .output .none (name "row")] = ["rows", "rate", "sum.net", "row"] := by
  decide +kernel

end DocModel.Template
