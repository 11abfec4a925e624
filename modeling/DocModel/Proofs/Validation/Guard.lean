import DocModel.Proofs.Traversal
import DocModel.Proofs.Validation.Preorder

/-!
The depth guard of a validation. It stops the walk exactly when some line of nodes, as long as the depth
bound, leads to children and has no required node without a value on it; so a model that is too deep is
accepted or refused according to the required groups that the data leave out.
-/

namespace DocModel

namespace MetadataNode

/-- Whether nodes stand one below the other, the first one among some siblings. -/
def IsLineFrom : List MetadataNode → List MetadataNode → Prop
  | _, [] => True
  | siblings, node :: rest => node ∈ siblings ∧ IsLineFrom node.children rest

/-- Whether nothing was given for a node that is required. -/
def Position.isMissing (data : Json) (position : Position) : Bool :=
  position.isAbsent data && position.node.isRequired

end MetadataNode

namespace Validation

open MetadataNode

/-- A line of nodes on which a walk through some siblings goes down: it has as many nodes as given, its
last node has children, and none of its nodes is required and absent in the data. -/
structure IsWalkedLine (data : Json) (siblings : List MetadataNode) (length : Nat)
    (line : List MetadataNode) : Prop where
  isLine : IsLineFrom siblings line
  length_eq : line.length = length
  last_children : ∀ last ∈ line.getLast?, last.children ≠ []
  not_missing : ∀ position ∈ Position.ofLine line, position.isMissing data = false

section Line

variable {data : Json} {siblings : List MetadataNode} {length : Nat} {node : MetadataNode}
  {rest : List MetadataNode}

theorem isWalkedLine_nil (data : Json) (siblings : List MetadataNode) :
    IsWalkedLine data siblings 0 [] :=
  ⟨trivial, rfl, nofun, nofun⟩

/-- No node of a line is missing if the first one is not, and none of the others in the data below it. -/
theorem forall_not_missing_cons :
    (∀ position ∈ Position.ofLine (node :: rest), position.isMissing data = false) ↔
      (!Json.isPresent (data.get? node.name) && node.isRequired) = false ∧
        ∀ position ∈ Position.ofLine rest,
          position.isMissing (nestedData (data.get? node.name)) = false := by
  have hunder (position : Position) : (position.under node).isMissing data =
      position.isMissing (nestedData (data.get? node.name)) := by
    rw [Position.isMissing, Position.isAbsent_under]
    rfl
  rw [Position.ofLine, List.forall_mem_cons, List.forall_mem_map, Position.isMissing,
    Position.isAbsent, Position.value?_top]
  simp only [hunder]

/-- A walk goes down to a node that is not missing and has children, and from there along the rest. -/
theorem isWalkedLine_cons_iff :
    IsWalkedLine data siblings (length + 1) (node :: rest) ↔
      node ∈ siblings ∧ (!Json.isPresent (data.get? node.name) && node.isRequired) = false ∧
        node.children ≠ [] ∧
        IsWalkedLine (nestedData (data.get? node.name)) node.children length rest := by
  constructor
  · rintro ⟨⟨hnode, hline⟩, hlength, hlast, hmissing⟩
    obtain ⟨hgiven, hbelow⟩ := forall_not_missing_cons.mp hmissing
    cases rest with
    | nil => exact ⟨hnode, hgiven, hlast node rfl, hline, Nat.succ.inj hlength, nofun, hbelow⟩
    | cons next rest =>
      exact ⟨hnode, hgiven, List.ne_nil_of_mem hline.1, hline, Nat.succ.inj hlength, hlast, hbelow⟩
  · rintro ⟨hnode, hgiven, hchildren, hline, hlength, hlast, hbelow⟩
    refine ⟨⟨hnode, hline⟩, congrArg Nat.succ hlength, ?_,
      forall_not_missing_cons.mpr ⟨hgiven, hbelow⟩⟩
    cases rest with
    | nil =>
      intro last hmem
      cases hmem
      exact hchildren
    | cons next rest => exact hlast

theorem exists_isWalkedLine_succ_iff :
    (∃ line, IsWalkedLine data siblings (length + 1) line) ↔
      ∃ node ∈ siblings, (!Json.isPresent (data.get? node.name) && node.isRequired) = false ∧
        node.children ≠ [] ∧
        ∃ rest, IsWalkedLine (nestedData (data.get? node.name)) node.children length rest := by
  constructor
  · rintro ⟨line, hline⟩
    obtain ⟨node, rest, rfl⟩ := List.exists_cons_of_length_eq_add_one hline.length_eq
    obtain ⟨hnode, hgiven, hchildren, hbelow⟩ := isWalkedLine_cons_iff.mp hline
    exact ⟨node, hnode, hgiven, hchildren, rest, hbelow⟩
  · rintro ⟨node, hnode, hgiven, hchildren, rest, hbelow⟩
    exact ⟨node :: rest, isWalkedLine_cons_iff.mpr ⟨hnode, hgiven, hchildren, hbelow⟩⟩

/-- The walk goes down no such line exactly when each one that leads to children has a required node on it
that is absent. -/
theorem not_exists_isWalkedLine_iff :
    (¬ ∃ line, IsWalkedLine data siblings length line) ↔
      ∀ line, IsLineFrom siblings line → line.length = length →
        (∀ last ∈ line.getLast?, last.children ≠ []) →
          ∃ position ∈ Position.ofLine line, position.isMissing data = true := by
  constructor
  · intro hnone line hline hlength hlast
    by_contra hopen
    refine hnone ⟨line, hline, hlength, hlast, fun position hposition => ?_⟩
    exact Bool.eq_false_iff.mpr fun hmissing => hopen ⟨position, hposition, hmissing⟩
  · rintro hcut ⟨line, hline, hlength, hlast, hopen⟩
    obtain ⟨position, hposition, hmissing⟩ := hcut line hline hlength hlast
    rw [hopen position hposition] at hmissing
    cases hmissing

end Line

/-- A step fails exactly when it enters the level below its node, and with the failure of that level. -/
theorem guardedFaults_eq_error_iff {maxDepth depth : Nat} {data : Json} {node : MetadataNode}
    {error : ModelError} :
    guardedFaults maxDepth depth data node = .error error ↔
      (!Json.isPresent (data.get? node.name) && node.isRequired) = false ∧ node.children ≠ [] ∧
        errorsAt maxDepth depth (nestedData (data.get? node.name)) node.children = .error error := by
  rw [guardedFaults]
  by_cases hmissing : (!Json.isPresent (data.get? node.name) && node.isRequired) = true
  · simp [hmissing, pure, Except.pure]
  · simp only [Bool.not_eq_true _ ▸ hmissing, true_and]
    by_cases hleaf : node.children.isEmpty = true
    · simp [List.isEmpty_iff.mp hleaf, pure, Except.pure]
    · have hchildren : node.children ≠ [] := by simpa using hleaf
      simp only [if_neg hleaf, ne_eq, hchildren, not_false_eq_true, true_and]
      cases errorsAt maxDepth depth (nestedData (data.get? node.name)) node.children <;>
        simp [bind, Except.bind, pure, Except.pure]

/-- A level fails exactly when the walk goes down a line as long as the depth that is left, and with
nothing but the failure of the guard. -/
theorem errorsAt_eq_error_iff {maxDepth depth : Nat} {data : Json} {nodes : List MetadataNode}
    {error : ModelError} :
    errorsAt maxDepth depth data nodes = .error error ↔
      error = .potentialLoop .validation maxDepth ∧ ∃ line, IsWalkedLine data nodes depth line := by
  induction depth generalizing data nodes error with
  | zero =>
    have hline : ∃ line, IsWalkedLine data nodes 0 line := ⟨[], isWalkedLine_nil data nodes⟩
    rw [errorsAt, Except.error.injEq, eq_comm, and_iff_left hline]
  | succ depth ih =>
    have hstep (node : MetadataNode) (e : ModelError) :
        guardedFaults maxDepth depth data node = .error e ↔
          e = .potentialLoop .validation maxDepth ∧
            (!Json.isPresent (data.get? node.name) && node.isRequired) = false ∧
            node.children ≠ [] ∧
            ∃ rest, IsWalkedLine (nestedData (data.get? node.name)) node.children depth rest := by
      rw [guardedFaults_eq_error_iff, ih]
      tauto
    rw [errorsAt_succ, map_eq_error_iff, exists_isWalkedLine_succ_iff,
      mapM_eq_error_iff_of_only fun node _ e he => ((hstep node e).mp he).1]
    simp only [hstep, true_and]

end Validation

open MetadataNode Validation

/-- A validation fails exactly when its bound is zero, or when a line of as many nodes as the bound leads
from the top of the model to a node with children, and no node on it is both required and absent in the
data. It fails with the bound in the stage of validation and with nothing else; and it yields a list of
faults exactly when every such line of a model is cut by a required node that the data leave out. -/
theorem validate_eq_error_iff (data : Json) (model : List MetadataNode) (maxDepth : Nat) :
    ((∃ error, validate data model maxDepth = .error error) ↔
      maxDepth = 0 ∨ ∃ line, IsWalkedLine data model maxDepth line) ∧
    (∀ error, validate data model maxDepth = .error error →
      error = .potentialLoop .validation maxDepth) ∧
    ((∃ errors, validate data model maxDepth = .ok errors) ↔
      0 < maxDepth ∧ ∀ line, IsLineFrom model line → line.length = maxDepth →
        (∀ last ∈ line.getLast?, last.children ≠ []) →
          ∃ position ∈ Position.ofLine line, position.isMissing data = true) := by
  have herror (error : ModelError) : validate data model maxDepth = .error error ↔
      error = .potentialLoop .validation maxDepth ∧ ∃ line, IsWalkedLine data model maxDepth line :=
    errorsAt_eq_error_iff
  have hfails : (∃ error, validate data model maxDepth = .error error) ↔
      ∃ line, IsWalkedLine data model maxDepth line := by
    simp [herror]
  have hzero : maxDepth = 0 → ∃ line, IsWalkedLine data model maxDepth line := by
    rintro rfl
    exact ⟨[], isWalkedLine_nil data model⟩
  have hsucceeds : (∃ errors, validate data model maxDepth = .ok errors) ↔
      ¬ ∃ error, validate data model maxDepth = .error error := by
    cases validate data model maxDepth <;> simp
  refine ⟨?_, fun error h => ((herror error).mp h).1, ?_⟩
  · rw [hfails, or_iff_right_of_imp hzero]
  · have hpositive : (¬ ∃ line, IsWalkedLine data model maxDepth line) → 0 < maxDepth :=
      fun hnone => Nat.pos_of_ne_zero fun h => hnone (hzero h)
    rw [hsucceeds, hfails, ← not_exists_isWalkedLine_iff, and_iff_right_of_imp hpositive]

/-- A required group with one name in it is too deep for a bound of one, unless the data leave it out. -/
example :
    let group := { ofField none "guest" "guest" [ofField none "name" "guest.name" []] with
      isRequired := true }
    (validate (.obj [("guest", .obj [])]) [group] 1).isOk = false ∧
      (validate (.obj []) [group] 1).isOk = true := by
  decide +kernel

end DocModel
