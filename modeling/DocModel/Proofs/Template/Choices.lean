import DocModel.Proofs.Template.Occurrences
import DocModel.Template.Reading
import Mathlib

/-!
Assignments in the branches of a choice. They count in their own branch, and the choice as a whole binds
nothing: what a walk finds behind it is what it finds there without it. So a name that every branch assigns
is found behind the choice all the same, unless something else binds it.
-/

namespace DocModel.Template

/-- Some nodes mention a name freely in a scope exactly if the scope does not have it and it is free in the
nodes themselves. -/
theorem forall_names_ne_iff (scope : Scope) (nodes : List Node) (x : String) :
    (∀ name ∈ namesFound (walkNodes scope nodes), Scope.head name ≠ x) ↔
      x ∈ scope ∨ ∀ occurrence ∈ occurrences nodes,
        Scope.head occurrence.name = x → ¬ occurrence.IsFree := by
  rw [namesFound_walkNodes (fun _ => mem_nodeList_nil scope), ← occurrences, freeNames]
  simp only [List.forall_mem_map, List.mem_filter, decide_eq_true_eq, and_imp]
  rw [or_iff_not_imp_left]
  constructor
  · rintro hnames hscope occurrence hmem rfl hfree
    exact hnames occurrence hmem ⟨hfree, hscope⟩ rfl
  · rintro hfree occurrence hmem ⟨hoccurs, hscope⟩ rfl
    exact hfree hscope occurrence hmem rfl hoccurs

/-- Whether a node is a choice with a body for every case, each of which assigns the name itself. -/
def Node.assignsInEveryBranch (x : String) : Node → Bool
  | .choice branches (some (.mk _ fallback)) _ =>
    branches.all (fun | .mk _ _ body => (Enclosure.nodeList body).binds.contains x) &&
      (Enclosure.nodeList fallback).binds.contains x
  | _ => false

/-- Whatever the branches of a choice assign, the walk finds around the choice what it finds without it. In
what stands behind, no name with some head is found exactly if the head is assigned before the choice,
bound around the list, or bound again at each place where it occurs; otherwise its data paths are paths of
the template. -/
theorem names_behind_choice (before after : List Node) (branches : List Branch)
    (otherwise : Option Fallback) (closing : Edges) :
    (∀ scope : Scope,
      walkNodes scope (before ++ .choice branches otherwise closing :: after) =
          walkNodes scope before ++ walkNode (scope.behind before) (.choice branches otherwise closing) ++
            walkNodes (scope.behind before) after ∧
        walkNodes scope (before ++ after) =
          walkNodes scope before ++ walkNodes (scope.behind before) after ∧
        ∀ x, (∀ name ∈ namesFound (walkNodes (scope.behind before) after), Scope.head name ≠ x) ↔
          x ∈ (Enclosure.nodeList before).binds ∨ x ∈ scope ∨
            ∀ occurrence ∈ occurrences after, Scope.head occurrence.name = x → ¬ occurrence.IsFree) ∧
      ∀ name ∈ namesFound (walkNodes (Scope.behind [] before) after), ∀ path,
        pathOfName? name = some path →
          path ∈ paths (before ++ .choice branches otherwise closing :: after) := by
  have hwalk (scope : Scope) :
      walkNodes scope (before ++ .choice branches otherwise closing :: after) =
        walkNodes scope before ++ walkNode (scope.behind before) (.choice branches otherwise closing) ++
          walkNodes (scope.behind before) after := by
    rw [walkNodes_append, walkNodes, List.append_assoc]
    rfl
  refine ⟨fun scope => ⟨hwalk scope, walkNodes_append scope before after, fun x => ?_⟩, ?_⟩
  · rw [forall_names_ne_iff, mem_behind, or_assoc]
  · intro name hname path hpath
    rw [paths, findings, hwalk, ← namesFound, namesFound_append, List.mem_eraseDups]
    exact List.mem_filterMap.mpr ⟨name, List.mem_append_right _ hname, hpath⟩

/-- A choice that assigns `x` in each branch, and `x` behind it. -/
def eitherSource : String :=
  "\x7b% if c %\x7d\x7b% set x = 1 %\x7d\x7b% else %\x7d" ++
    "\x7b% set x = 2 %\x7d\x7b% endif %\x7d\x7b\x7b x \x7d\x7d"

def eitherChoice : Node :=
  .choice [.mk .none (.mk (.name "c") [] false) [.assign .none "x" false (.mk (.int 1) [] false)]]
    (some (.mk .none [.assign .none "x" false (.mk (.int 2) [] false)])) .none

def eitherNodes : List Node := [eitherChoice, .output .none (.mk (.name "x") [] false)]

/-- The name is a data path of the template. -/
theorem paths_eitherNodes :
    Template.parse eitherSource = .ok eitherNodes ∧ eitherChoice.assignsInEveryBranch "x" = true ∧
      paths (analysed eitherNodes) = ["c", "x"] :=
  ⟨by cbv, by decide +kernel, by decide +kernel⟩

end DocModel.Template
