import DocModel.Proofs.Template.Nesting
import DocModel.Proofs.Text.Trim

/-!
Renaming what a template binds. A name that takes the place of another one wherever that is bound or stands
at the head of a name moves through the walk with it, as long as it is new to the template. So neither the
data paths nor the directives nor the texts tell the two apart, if every use of the old name is bound.
-/

namespace DocModel.Template

namespace Scope

/-- A name that a template can bind and refer to: it is its own head, and the engine does not provide it. -/
structure IsLocal (name : String) : Prop where
  plain : ∀ c ∈ name.toList, c ≠ '.' ∧ c ≠ '['
  not_engine : name ∉ engineNames

/-- What stands behind the head of a name. -/
def tail (path : String) : List Char :=
  path.toList.dropWhile fun c => c ≠ '.' && c ≠ '['

/-- A name with another head. -/
def withHead (name path : String) : String := String.ofList (name.toList ++ tail path)

theorem IsLocal.head_withHead {name : String} (hname : IsLocal name) (path : String) :
    head (withHead name path) = name := by
  refine head_eq_iff.mpr ⟨tail path, String.toList_ofList, hname.plain, fun c hc => ?_⟩
  have hstop := Text.stops_dropWhile _ path.toList c hc
  simpa [or_iff_not_imp_left] using hstop

end Scope

/-- The name that stands for another one when `y` is put in the place of `x`. -/
def renamed (x y name : String) : String := if name = x then y else name

/-- A name with `y` in the place of the head `x`. -/
def renamedHead (x y path : String) : String :=
  if Scope.head path = x then Scope.withHead y path else path

section Trees

variable (x y : String)

mutual

/-- An expression with `y` in the place of `x` at the heads of all names. -/
def Expr.renamed : Expr → Expr
  | .mk operand filters negated => .mk operand.renamed (renamedCalls filters) negated

def Operand.renamed : Operand → Operand
  | .name path => .name (renamedHead x y path)
  | .text value => .text value
  | .int value => .int value
  | .real value => .real value
  | .bool value => .bool value
  | .arithmetic op left right => .arithmetic op left.renamed right.renamed
  | .logical op left right => .logical op left.renamed right.renamed
  | .membership negated left right => .membership negated left.renamed right.renamed
  | .test negated subject name args =>
    .test negated (renamedHead x y subject) name (renamedExprs args)
  | .routineCall space name args => .routineCall space name (renamedArgs args)
  | .call call => .call call.renamed
  | .array items => .array (renamedExprs items)
  | .concat parts => .concat (renamedOperands parts)

def Call.renamed : Call → Call
  | .mk name args => .mk name (renamedArgs args)

def renamedCalls : List Call → List Call
  | [] => []
  | call :: rest => call.renamed :: renamedCalls rest

def renamedExprs : List Expr → List Expr
  | [] => []
  | e :: rest => e.renamed :: renamedExprs rest

def renamedOperands : List Operand → List Operand
  | [] => []
  | operand :: rest => operand.renamed :: renamedOperands rest

/-- The names of arguments stay as they are. -/
def renamedArgs : List (String × Expr) → List (String × Expr)
  | [] => []
  | (name, e) :: rest => (name, e.renamed) :: renamedArgs rest

end

/-- Parameters with `y` in the place of `x`, also in their defaults. -/
def renamedParams (params : List (String × Option Expr)) : List (String × Option Expr) :=
  params.map (Prod.map (renamed x y) (Option.map (Expr.renamed x y)))

mutual

/-- A node with `y` in the place of `x` where that is bound, and at the heads of all names. The parameters
of a routine are put in the order of their new names. -/
def Node.renamed : Node → Node
  | .text text => .text text
  | .comment edges text => .comment edges text
  | .raw opening text closing => .raw opening text closing
  | .output edges value => .output edges (value.renamed x y)
  | .assign edges name isGlobal value =>
    .assign edges (Template.renamed x y name) isGlobal (value.renamed x y)
  | .filtered opening filter body closing =>
    .filtered opening (filter.renamed x y) (renamedNodes body) closing
  | .block opening name body closing => .block opening name (renamedNodes body) closing
  | .loop opening key value container body otherwise closing =>
    .loop opening (key.map (Template.renamed x y)) (Template.renamed x y value)
      (container.renamed x y) (renamedNodes body)
      (match otherwise with
      | some nodes => some (renamedNodes nodes)
      | none => none) closing
  | .choice branches otherwise closing =>
    .choice (renamedBranches branches)
      (match otherwise with
      | some fallback => some fallback.renamed
      | none => none) closing
  | .routine opening name params body closing =>
    .routine opening name
      (inNameOrder (renamedParams x y params))
      (renamedNodes body) closing
  | .parentBlock => .parentBlock
  | .extend edges name => .extend edges name
  | .include edges names mayBeMissing => .include edges names mayBeMissing
  | .importRoutines edges name space => .importRoutines edges name space
  | .leave edges => .leave edges
  | .skip edges => .skip edges

def renamedNodes : List Node → List Node
  | [] => []
  | node :: rest => node.renamed :: renamedNodes rest

def renamedBranches : List Branch → List Branch
  | [] => []
  | .mk edges condition body :: rest =>
    .mk edges (condition.renamed x y) (renamedNodes body) :: renamedBranches rest

def Fallback.renamed : Fallback → Fallback
  | .mk edges body => .mk edges (renamedNodes body)

end

end Trees

/-- A finding with `y` in the place of the head `x`. Comments and texts stay as they are. -/
def Finding.renamed (x y : String) : Finding → Finding
  | .name path => .name (renamedHead x y path)
  | .comment s => .comment s
  | .text s => .text s

def Operand.isLiteral : Operand → Bool
  | .text _ | .int _ | .real _ | .bool _ => true
  | _ => false

/-- Whether an expression is a literal, without filters. -/
def Expr.isLiteral : Expr → Bool
  | .mk operand filters _ => operand.isLiteral && filters.isEmpty

def Branch.condition : Branch → Expr
  | .mk _ condition _ => condition

namespace Node

/-- The names that a node binds. -/
def binders : Node → List String
  | .assign _ name _ _ => [name]
  | .loop _ key value _ _ _ _ => (Enclosure.loopBody key value).binds
  | .routine _ _ params _ _ => (Enclosure.routineBody params).binds
  | _ => []

/-- The defaults of the parameters of a node. -/
def defaults : Node → List Expr
  | .routine _ _ params _ _ => params.filterMap (·.2)
  | _ => []

/-- The names in the expressions of a node, without those in the nodes inside of it. -/
def ownNames : Node → List String
  | .output _ value | .assign _ _ _ value => namesInExpr value
  | .filtered _ filter _ _ => namesInCall filter
  | .loop _ _ _ container _ _ _ => namesInExpr container
  | .choice branches _ _ => branches.flatMap fun branch => namesInExpr branch.condition
  | .routine opening name params body closing =>
    (Node.routine opening name params body closing).defaults.flatMap namesInExpr
  | _ => []

/-- What renaming to `y` asks of a node: it neither binds `y` nor has it at the head of a name, and the
defaults of its parameters are literals. -/
structure Admits (node : Node) (y : String) : Prop where
  not_bound : y ∉ node.binders
  not_head : ∀ name ∈ node.ownNames, Scope.head name ≠ y
  literal : ∀ e ∈ node.defaults, e.isLiteral = true

instance (node : Node) (y : String) : Decidable (node.Admits y) :=
  decidable_of_iff (y ∉ node.binders ∧ (∀ name ∈ node.ownNames, Scope.head name ≠ y) ∧
    ∀ e ∈ node.defaults, e.isLiteral = true)
    ⟨fun ⟨hbound, hhead, hliteral⟩ => ⟨hbound, hhead, hliteral⟩,
      fun ⟨hbound, hhead, hliteral⟩ => ⟨hbound, hhead, hliteral⟩⟩

end Node

section Names

variable (x y : String)

mutual

theorem namesInExpr_renamed : ∀ e : Expr,
    namesInExpr (e.renamed x y) = (namesInExpr e).map (renamedHead x y)
  | .mk operand filters _ => by
    rw [Expr.renamed, namesInExpr, namesInExpr, namesInOperand_renamed, namesInCalls_renamed,
      List.map_append]

theorem namesInOperand_renamed : ∀ operand : Operand,
    namesInOperand (operand.renamed x y) = (namesInOperand operand).map (renamedHead x y)
  | .name path => by
    rw [Operand.renamed, namesInOperand, namesInOperand, List.map_singleton]
  | .arithmetic _ left right | .logical _ left right | .membership _ left right => by
    rw [Operand.renamed, namesInOperand, namesInOperand, namesInExpr_renamed, namesInExpr_renamed,
      List.map_append]
  | .test _ subject _ args => by
    rw [Operand.renamed, namesInOperand, namesInOperand, namesInExprs_renamed, List.map_cons]
  | .routineCall _ _ args => by
    rw [Operand.renamed, namesInOperand, namesInOperand, namesInArgs_renamed, inNameOrder_map]
    simp [List.flatMap_map, List.map_flatMap]
  | .call call => by
    rw [Operand.renamed, namesInOperand, namesInOperand, namesInCall_renamed]
  | .array items => by
    rw [Operand.renamed, namesInOperand, namesInOperand, namesInExprs_renamed]
  | .concat parts => by
    rw [Operand.renamed, namesInOperand, namesInOperand, namesInOperands_renamed]
  | .text _ | .int _ | .real _ | .bool _ => by
    simp [Operand.renamed, namesInOperand]

theorem namesInCall_renamed : ∀ call : Call,
    namesInCall (call.renamed x y) = (namesInCall call).map (renamedHead x y)
  | .mk _ args => by
    rw [Call.renamed, namesInCall, namesInCall, namesInArgs_renamed, inNameOrder_map]
    simp [List.flatMap_map, List.map_flatMap]

theorem namesInCalls_renamed : ∀ calls,
    namesInCalls (renamedCalls x y calls) = (namesInCalls calls).map (renamedHead x y)
  | [] => by simp [renamedCalls, namesInCalls]
  | call :: rest => by
    rw [renamedCalls, namesInCalls, namesInCalls, namesInCall_renamed, namesInCalls_renamed,
      List.map_append]

theorem namesInExprs_renamed : ∀ es,
    namesInExprs (renamedExprs x y es) = (namesInExprs es).map (renamedHead x y)
  | [] => by simp [renamedExprs, namesInExprs]
  | e :: rest => by
    rw [renamedExprs, namesInExprs, namesInExprs, namesInExpr_renamed, namesInExprs_renamed,
      List.map_append]

theorem namesInOperands_renamed : ∀ operands,
    namesInOperands (renamedOperands x y operands) =
      (namesInOperands operands).map (renamedHead x y)
  | [] => by simp [renamedOperands, namesInOperands]
  | operand :: rest => by
    rw [renamedOperands, namesInOperands, namesInOperands, namesInOperand_renamed,
      namesInOperands_renamed, List.map_append]

theorem namesInArgs_renamed : ∀ args,
    namesInArgs (renamedArgs x y args) =
      (namesInArgs args).map (Prod.map id (List.map (renamedHead x y)))
  | [] => by simp [renamedArgs, namesInArgs]
  | (name, e) :: rest => by
    rw [renamedArgs, namesInArgs, namesInArgs, namesInExpr_renamed, namesInArgs_renamed,
      List.map_cons, Prod.map_apply, id]

end

end Names

theorem namesInExpr_of_isLiteral {e : Expr} (he : e.isLiteral = true) : namesInExpr e = [] := by
  obtain ⟨operand, filters, negated⟩ := e
  obtain ⟨hoperand, hfilters⟩ := Bool.and_eq_true_iff.mp he
  rw [namesInExpr, List.isEmpty_iff.mp hfilters, namesInCalls, List.append_nil]
  cases operand with
  | text _ | int _ | real _ | bool _ => rw [namesInOperand]
  | _ => cases hoperand

section Scopes

variable {x y : String} {scope scope' : Scope}

theorem renamed_eq_renamed_iff {name other : String} (hname : name ≠ y) (hother : other ≠ y) :
    renamed x y name = renamed x y other ↔ name = other := by
  unfold renamed
  split <;> split <;> simp_all [eq_comm]

theorem renamed_mem_map_iff {names : List String} (hnames : y ∉ names) {name : String}
    (hname : name ≠ y) : renamed x y name ∈ names.map (renamed x y) ↔ name ∈ names := by
  rw [List.mem_map]
  constructor
  · rintro ⟨other, hmem, heq⟩
    have hother : other ≠ y := fun h => hnames (h ▸ hmem)
    rwa [← (renamed_eq_renamed_iff hother hname).mp heq]
  · exact fun hmem => ⟨name, hmem, rfl⟩

namespace Scope

/-- The second scope has the names of the first one, with `y` in the place of `x`. Whether the first one has
`y` and the second one `x` is left open: no name looks for them there. -/
structure IsRenamed (x y : String) (scope scope' : Scope) : Prop where
  old : IsLocal x
  new : IsLocal y
  mem_iff : ∀ name, name ≠ y → (renamed x y name ∈ scope' ↔ name ∈ scope)

theorem IsRenamed.nil (hx : IsLocal x) (hy : IsLocal y) : IsRenamed x y [] [] :=
  ⟨hx, hy, fun _ _ => by simp⟩

/-- Scopes still correspond when the same names, renamed, are bound around both. -/
theorem IsRenamed.bind {names : List String} {inner inner' : Scope}
    (hscope : IsRenamed x y scope scope') (hnames : y ∉ names)
    (hinner : ∀ name, name ∈ inner ↔ name ∈ names ∨ name ∈ scope)
    (hinner' : ∀ name, name ∈ inner' ↔ name ∈ names.map (renamed x y) ∨ name ∈ scope') :
    IsRenamed x y inner inner' := by
  refine ⟨hscope.old, hscope.new, fun name hname => ?_⟩
  rw [hinner, hinner', hscope.mem_iff name hname, renamed_mem_map_iff hnames hname]

theorem head_renamedHead (hy : IsLocal y) (path : String) :
    head (renamedHead x y path) = renamed x y (head path) := by
  unfold renamedHead renamed
  split
  · exact hy.head_withHead path
  · rfl

theorem contains_engineNames_renamed (hx : IsLocal x) (hy : IsLocal y) (name : String) :
    engineNames.contains (renamed x y name) = engineNames.contains name := by
  unfold renamed
  split
  · next h => simp [h, hx.not_engine, hy.not_engine]
  · rfl

/-- A renamed name is bound where the name is bound. -/
theorem IsRenamed.binds_renamedHead (hscope : IsRenamed x y scope scope') {path : String}
    (hpath : head path ≠ y) : scope'.binds (renamedHead x y path) = scope.binds path := by
  have hmem : scope'.contains (renamed x y (head path)) = scope.contains (head path) := by
    simp [hscope.mem_iff _ hpath]
  rw [binds, binds, head_renamedHead hscope.new,
    contains_engineNames_renamed hscope.old hscope.new, hmem]

end Scope

theorem Scope.IsRenamed.behind (hscope : scope.IsRenamed x y scope') {node : Node}
    (hnode : y ∉ node.binders) :
    (scopeBehind scope node).IsRenamed x y (scopeBehind scope' (node.renamed x y)) := by
  cases node with
  | assign edges name isGlobal value =>
    rw [Node.renamed, scopeBehind, scopeBehind]
    exact hscope.bind hnode (by simp [Node.binders]) (by simp [Node.binders])
  | _ => simpa only [Node.renamed, scopeBehind] using hscope

theorem Scope.IsRenamed.withLoop (hscope : scope.IsRenamed x y scope') {key : Option String}
    {value : String} (hloop : y ∉ (Enclosure.loopBody key value).binds) :
    (scope.withLoop key value).IsRenamed x y
      (scope'.withLoop (key.map (renamed x y)) (renamed x y value)) := by
  refine hscope.bind hloop (fun _ => mem_withLoop scope key value) fun name => ?_
  rw [mem_withLoop]
  cases key <;> simp [Enclosure.binds]

/-- The parameters of a routine are bound in its body, in whatever order they are visited. -/
theorem Scope.IsRenamed.routineBody (hscope : scope.IsRenamed x y scope')
    {params : List (String × Option Expr)} (hparams : y ∉ (Enclosure.routineBody params).binds) :
    (walkParams scope (inNameOrder params)).2.IsRenamed x y
      (walkParams scope' (inNameOrder (renamedParams x y params))).2 := by
  refine hscope.bind hparams (fun _ => mem_scope_of_routineBody scope params) fun name => ?_
  rw [mem_scope_of_routineBody, Enclosure.binds, Enclosure.binds, renamedParams, List.map_map,
    List.map_map]
  rfl

end Scopes

/-- Defaults without names say nothing. -/
theorem walkParams_eq_nil {params : List (String × Option Expr)}
    (hparams : ∀ e ∈ params.filterMap (·.2), namesInExpr e = []) (scope : Scope) :
    (walkParams scope params).1 = [] := by
  induction params generalizing scope with
  | nil => rfl
  | cons param rest ih =>
    obtain ⟨name, default⟩ := param
    cases default with
    | none => exact ih hparams (name :: scope)
    | some e =>
      obtain ⟨he, hrest⟩ := List.forall_mem_cons.mp hparams
      rw [walkParams, walkExpr_eq, he]
      exact ih hrest (name :: scope)

theorem walkParams_inNameOrder_eq_nil {params : List (String × Option Expr)}
    (hparams : ∀ e ∈ params.filterMap (·.2), namesInExpr e = []) (scope : Scope) :
    (walkParams scope (inNameOrder params)).1 = [] := by
  refine walkParams_eq_nil (fun e he => hparams e ?_) scope
  exact ((inNameOrder_perm params).filterMap _).mem_iff.mp he

theorem forall_mem_defaults_renamedParams {x y : String} {params : List (String × Option Expr)}
    (hparams : ∀ e ∈ params.filterMap (·.2), namesInExpr e = []) :
    ∀ e ∈ (renamedParams x y params).filterMap (·.2), namesInExpr e = [] := by
  have hdefaults : (renamedParams x y params).filterMap (·.2) =
      (params.filterMap (·.2)).map (Expr.renamed x y) := by
    rw [renamedParams, List.filterMap_map, List.map_filterMap]
    rfl
  rw [hdefaults]
  refine List.forall_mem_map.mpr fun e he => ?_
  rw [namesInExpr_renamed, hparams e he, List.map_nil]

section Expressions

variable {x y : String} {scope scope' : Scope} (hscope : scope.IsRenamed x y scope')

include hscope

theorem walkName_renamed {path : String} (hpath : Scope.head path ≠ y) :
    walkName scope' (renamedHead x y path) =
      (walkName scope path).map (Finding.renamed x y) := by
  rw [walkName, walkName, hscope.binds_renamedHead hpath]
  cases scope.binds path <;> rfl

theorem flatMap_walkName_renamed {names : List String}
    (hnames : ∀ name ∈ names, Scope.head name ≠ y) :
    (names.map (renamedHead x y)).flatMap (walkName scope') =
      (names.flatMap (walkName scope)).map (Finding.renamed x y) := by
  rw [List.flatMap_map, List.map_flatMap]
  exact List.flatMap_congr fun name hmem => walkName_renamed hscope (hnames name hmem)

theorem walkExpr_renamed {e : Expr} (he : ∀ name ∈ namesInExpr e, Scope.head name ≠ y) :
    walkExpr scope' (e.renamed x y) = (walkExpr scope e).map (Finding.renamed x y) := by
  rw [walkExpr_eq, walkExpr_eq, namesInExpr_renamed, flatMap_walkName_renamed hscope he]

theorem walkCall_renamed {call : Call} (hcall : ∀ name ∈ namesInCall call, Scope.head name ≠ y) :
    walkCall scope' (call.renamed x y) = (walkCall scope call).map (Finding.renamed x y) := by
  rw [walkCall_eq, walkCall_eq, namesInCall_renamed, flatMap_walkName_renamed hscope hcall]

end Expressions

section Walk

variable {x y : String}

-- The induction follows the tree, for all scopes that correspond to each other: each list is walked in
-- scopes of its own, and these differ by what the nodes met so far bind.
mutual

/-- The walk of a renamed node finds the same, renamed. -/
theorem walkNode_renamed {scope scope' : Scope} (hscope : scope.IsRenamed x y scope') : ∀ node,
    (∀ inner ∈ node :: nodesInside node, inner.Admits y) →
      walkNode scope' (node.renamed x y) = (walkNode scope node).map (Finding.renamed x y)
  | .output _ value, hnodes | .assign _ _ _ value, hnodes => by
    have hnode := (List.forall_mem_cons.mp hnodes).1
    rw [Node.renamed, walkNode, walkNode, walkExpr_renamed hscope hnode.not_head]
  | .filtered _ filter body _, hnodes => by
    obtain ⟨hnode, hbody⟩ := List.forall_mem_cons.mp hnodes
    rw [nodesInside] at hbody
    rw [Node.renamed, walkNode, walkNode, List.map_append,
      walkCall_renamed hscope hnode.not_head, walkNodes_renamed hscope body hbody]
  | .block _ _ body _, hnodes => by
    have hbody := (List.forall_mem_cons.mp hnodes).2
    rw [nodesInside] at hbody
    rw [Node.renamed, walkNode, walkNode, walkNodes_renamed hscope body hbody]
  | .loop _ key value container body otherwise _, hnodes => by
    obtain ⟨hnode, hinside⟩ := List.forall_mem_cons.mp hnodes
    unfold nodesInside at hinside
    obtain ⟨hbody, hotherwise⟩ := List.forall_mem_append.mp hinside
    have hloop := hscope.withLoop hnode.not_bound
    unfold Node.renamed walkNode
    rw [List.map_append, List.map_append, walkExpr_renamed hscope hnode.not_head,
      walkNodes_renamed hloop body hbody]
    congr 1
    cases otherwise with
    | none => rfl
    | some nodes => exact walkNodes_renamed hscope nodes hotherwise
  | .choice branches otherwise _, hnodes => by
    obtain ⟨hnode, hinside⟩ := List.forall_mem_cons.mp hnodes
    unfold nodesInside at hinside
    obtain ⟨hbranches, hotherwise⟩ := List.forall_mem_append.mp hinside
    unfold Node.renamed walkNode
    rw [List.map_append, walkBranches_renamed hscope branches hnode.not_head hbranches]
    congr 1
    cases otherwise with
    | none => rfl
    | some fallback => exact walkFallback_renamed hscope fallback hotherwise
  | .routine _ _ params body _, hnodes => by
    obtain ⟨hnode, hbody⟩ := List.forall_mem_cons.mp hnodes
    rw [nodesInside] at hbody
    have hparams : ∀ e ∈ params.filterMap (·.2), namesInExpr e = [] := fun e he =>
      namesInExpr_of_isLiteral (hnode.literal e he)
    have hroutine := hscope.routineBody hnode.not_bound
    rw [Node.renamed, walkNode, walkNode, inNameOrder_inNameOrder, List.map_append,
      walkParams_inNameOrder_eq_nil hparams,
      walkParams_inNameOrder_eq_nil (forall_mem_defaults_renamedParams hparams),
      walkNodes_renamed hroutine body hbody]
    rfl
  | .text _, _ | .comment .., _ | .raw .., _ | .parentBlock, _ | .extend .., _ | .include .., _ |
    .importRoutines .., _ | .leave _, _ | .skip _, _ => by
    rw [Node.renamed, walkNode, walkNode]
    rfl

theorem walkNodes_renamed {scope scope' : Scope} (hscope : scope.IsRenamed x y scope') : ∀ nodes,
    (∀ node ∈ nodesIn nodes, node.Admits y) →
      walkNodes scope' (renamedNodes x y nodes) =
        (walkNodes scope nodes).map (Finding.renamed x y)
  | [], _ => by simp [renamedNodes, walkNodes]
  | node :: rest, hnodes => by
    rw [nodesIn, ← List.cons_append] at hnodes
    obtain ⟨hnode, hrest⟩ := List.forall_mem_append.mp hnodes
    have hbehind := hscope.behind (hnode node List.mem_cons_self).not_bound
    rw [renamedNodes, walkNodes, walkNodes, List.map_append, walkNode_renamed hscope node hnode,
      walkNodes_renamed hbehind rest hrest]

theorem walkBranches_renamed {scope scope' : Scope} (hscope : scope.IsRenamed x y scope') :
    ∀ branches : List Branch,
      (∀ name ∈ branches.flatMap fun branch => namesInExpr branch.condition,
        Scope.head name ≠ y) →
        (∀ node ∈ nodesInBranches branches, node.Admits y) →
          walkBranches scope' (renamedBranches x y branches) =
            (walkBranches scope branches).map (Finding.renamed x y)
  | [], _, _ => by simp [renamedBranches, walkBranches]
  | .mk _ condition body :: rest, hnames, hnodes => by
    rw [List.flatMap_cons, Branch.condition] at hnames
    rw [nodesInBranches] at hnodes
    obtain ⟨hcondition, hnames⟩ := List.forall_mem_append.mp hnames
    obtain ⟨hbody, hrest⟩ := List.forall_mem_append.mp hnodes
    rw [renamedBranches, walkBranches, walkBranches, List.map_append, List.map_append,
      walkExpr_renamed hscope hcondition, walkNodes_renamed hscope body hbody,
      walkBranches_renamed hscope rest hnames hrest]

theorem walkFallback_renamed {scope scope' : Scope} (hscope : scope.IsRenamed x y scope') :
    ∀ fallback, (∀ node ∈ nodesInFallback fallback, node.Admits y) →
      walkFallback scope' (fallback.renamed x y) =
        (walkFallback scope fallback).map (Finding.renamed x y)
  | .mk _ body, hnodes => by
    rw [nodesInFallback] at hnodes
    rw [Fallback.renamed, walkFallback, walkFallback, walkNodes_renamed hscope body hnodes]

end

end Walk

theorem Finding.renamed_eq_self {x y : String} {finding : Finding}
    (hfinding : ∀ name ∈ finding.name?, Scope.head name ≠ x) : finding.renamed x y = finding := by
  cases finding with
  | name path => rw [Finding.renamed, renamedHead, if_neg (hfinding path rfl)]
  | comment _ | text _ => rfl

/-- A template and the same template with a new name in the place of one that is always bound say the
same. -/
theorem findings_renamedNodes {x y : String} (hx : Scope.IsLocal x) (hy : Scope.IsLocal y)
    {nodes : List Node} (hnodes : ∀ node ∈ nodesIn nodes, node.Admits y)
    (hbound : ∀ name ∈ namesFound (findings nodes), Scope.head name ≠ x) :
    findings (renamedNodes x y nodes) = findings nodes := by
  rw [findings, walkNodes_renamed (.nil hx hy) nodes hnodes, ← findings]
  refine (List.map_congr_left fun finding hmem => ?_).trans (List.map_id _)
  exact Finding.renamed_eq_self fun name hname =>
    hbound name (List.mem_filterMap.mpr ⟨finding, hmem, hname⟩)

/-- What a template binds cannot be told from outside of it. Let `x` and `y` be names that the engine does
not provide, let the defaults of the parameters be literals, and let `y` be new: no node binds it, and it is
not the head of a name. If no name with the head `x` is found, so that every use of `x` is bound, then with
`y` in the place of `x`, in all that binds and at the heads of all names, the template has the same data
paths, directives and texts. -/
theorem bound_name_is_unobservable {x y : String} (hx : Scope.IsLocal x) (hy : Scope.IsLocal y)
    {nodes : List Node} (hnodes : ∀ node ∈ nodesIn nodes, node.Admits y)
    (hbound : ∀ name ∈ namesFound (findings nodes), Scope.head name ≠ x) :
    paths (renamedNodes x y nodes) = paths nodes ∧
      (∀ strict, directives (renamedNodes x y nodes) strict = directives nodes strict) ∧
      texts (renamedNodes x y nodes) = texts nodes := by
  have hfindings := findings_renamedNodes hx hy hnodes hbound
  refine ⟨?_, fun strict => ?_, ?_⟩
  · rw [paths, paths, hfindings]
  · rw [directives, directives, comments, comments, hfindings]
  · rw [texts, texts, hfindings]

/-- A template that binds a name twice: as a parameter of a routine and as the value of a loop. -/
def tableNodes (item : String) : List Node :=
  let name (path : String) : Expr := .mk (.name path) [] false
  let sum (left right : Expr) : Expr := .mk (.arithmetic .add left right) [] false
  [.routine .none "cell" (inNameOrder [("mode", some (.mk (.int 1) [] false)), (item, none)])
    [.output .none (sum (name (item ++ ".net")) (name "mode"))] .none,
  .loop .none none item (name "report.rows")
    [.text "<td>", .assign .none "sum" false (sum (name (item ++ ".net")) (name "report.tax")),
      .output .none (name "sum")] none .none]

/-- With the new name the parameters of the routine stand in another order, and nothing else changes. -/
theorem bound_name_is_unobservable_row :
    renamedNodes "row" "line" (tableNodes "row") = tableNodes "line" ∧
      paths (tableNodes "line") = ["report.rows", "report.tax"] ∧
      (∀ strict, directives (tableNodes "line") strict = directives (tableNodes "row") strict) ∧
      texts (tableNodes "line") = ["<td>"] := by
  have hrenamed : renamedNodes "row" "line" (tableNodes "row") = tableNodes "line" := by cbv
  have hnodes : ∀ node ∈ nodesIn (tableNodes "row"), node.Admits "line" := by decide +kernel
  have hbound : ∀ name ∈ namesFound (findings (tableNodes "row")), Scope.head name ≠ "row" := by
    decide +kernel
  have hsame := bound_name_is_unobservable ⟨by simp, by decide⟩ ⟨by simp, by decide⟩ hnodes hbound
  rw [hrenamed] at hsame
  obtain ⟨hpaths, hdirectives, htexts⟩ := hsame
  refine ⟨hrenamed, hpaths.trans ?_, hdirectives, htexts.trans ?_⟩
  · decide +kernel
  · decide +kernel

end DocModel.Template
