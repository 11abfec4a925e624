import DocModel.Proofs.Decimal.Reading
import DocModel.Proofs.HelperModule.Conditions
import DocModel.Proofs.Validation.Constraints
import DocModel.Proofs.Validation.Preorder

/-!
How integers are compared, by the operations on two values and by the bounds of a range: as the doubles that
are nearest to them. Two integers of 64 bits are never compared the wrong way round by this, but they may
count as equal when both are large and close to each other.
-/

namespace DocModel

open Double

namespace Validation

/-- A node has a fault of one kind to report for a value. -/
def Reports (node : MetadataNode) (value : Json) (code : ValidationCode) : Prop :=
  ∃ error ∈ ownErrors node (some value), error.code = code

instance (node : MetadataNode) (value : Json) (code : ValidationCode) :
    Decidable (Reports node value code) :=
  inferInstanceAs (Decidable (∃ error ∈ ownErrors node (some value), error.code = code))

section Reports

variable {node : MetadataNode} {value : Json} {code : ValidationCode}

theorem reports_iff (hpresent : Json.isPresent (some value) = true) :
    Reports node value code ↔ ∃ breach, breach? node value = some breach ∧ breach.code = code := by
  rw [Reports, ownErrors_of_present hpresent, Option.bind_some, constraintFault?]
  cases breach? node value <;> simp

/-- The lower end of a range comes first, so that nothing hides its violation. -/
theorem reports_lessThanRange_iff (hpresent : Json.isPresent (some value) = true) :
    Reports node value .lessThanRange ↔
      ∃ breach, Violates node value breach ∧ breach.code = .lessThanRange := by
  rw [reports_iff hpresent]
  constructor
  · rintro ⟨breach, hbreach, hcode⟩
    exact ⟨breach, (breach?_eq_some_iff.mp hbreach).1, hcode⟩
  · rintro ⟨breach, hviolated, hcode⟩
    refine ⟨breach, breach?_eq_some_iff.mpr ⟨hviolated, [], precedence.tail, ?_, ?_⟩, hcode⟩
    · rw [hcode]
      rfl
    · exact fun _ _ => List.not_mem_nil

/-- The upper end of a range comes second, after the lower one. -/
theorem reports_greaterThanRange_iff (hpresent : Json.isPresent (some value) = true) :
    Reports node value .greaterThanRange ↔
      (∃ breach, Violates node value breach ∧ breach.code = .greaterThanRange) ∧
        ¬ Reports node value .lessThanRange := by
  rw [reports_lessThanRange_iff hpresent, reports_iff hpresent]
  constructor
  · rintro ⟨breach, hbreach, hcode⟩
    obtain ⟨hviolated, earlier, later, hprecedence, hearlier⟩ := breach?_eq_some_iff.mp hbreach
    refine ⟨⟨breach, hviolated, hcode⟩, fun ⟨other, hother, hless⟩ => hearlier other hother ?_⟩
    cases earlier with
    | nil =>
      rw [hcode] at hprecedence
      cases hprecedence
    | cons first rest =>
      obtain rfl : first = .lessThanRange := (List.cons.inj hprecedence).1.symm
      rw [hless]
      exact List.mem_cons_self
  · rintro ⟨⟨breach, hviolated, hcode⟩, hnot⟩
    refine ⟨breach, breach?_eq_some_iff.mpr ⟨hviolated, [.lessThanRange], precedence.tail.tail, ?_, ?_⟩,
      hcode⟩
    · rw [hcode]
      rfl
    · intro other hother hmem
      exact hnot ⟨other, hother, List.mem_singleton.mp hmem⟩

end Reports

section Bounds

variable {node : MetadataNode} {x : Int} {limit : Double}

theorem isBelow_int_iff : IsBelow (.int x) (.number limit) ↔ (ofInt x).less limit = true := by
  constructor
  · rintro (⟨⟨⟩, hless⟩ | _)
    exact hless
  · exact IsBelow.number (.int x)

theorem isAbove_int_iff : IsAbove (.int x) (.number limit) ↔ limit.less (ofInt x) = true := by
  constructor
  · rintro (⟨⟨⟩, hless⟩ | _)
    exact hless
  · exact IsAbove.number (.int x)

theorem reports_lessThanRange_int_iff (htype : node.type = .number)
    (hmin : node.min = some (.number limit)) :
    Reports node (.int x) .lessThanRange ↔ (ofInt x).less limit = true := by
  rw [reports_lessThanRange_iff rfl, ← isBelow_int_iff]
  constructor
  · rintro ⟨breach, hviolated, hcode⟩
    cases hviolated with
    | below _ hbound hvalue =>
      cases hmin.symm.trans hbound
      exact hvalue
    | above | shorter | longer => cases hcode
  · intro hvalue
    exact ⟨_, .below (.inl htype) hmin hvalue, rfl⟩

theorem reports_greaterThanRange_int_iff (htype : node.type = .number)
    (hmax : node.max = some (.number limit)) :
    Reports node (.int x) .greaterThanRange ↔
      limit.less (ofInt x) = true ∧ ¬ Reports node (.int x) .lessThanRange := by
  rw [reports_greaterThanRange_iff rfl, ← isAbove_int_iff]
  refine and_congr_left fun _ => ⟨?_, fun hvalue => ⟨_, .above (.inl htype) hmax hvalue, rfl⟩⟩
  rintro ⟨breach, hviolated, hcode⟩
  cases hviolated with
  | above _ hbound hvalue =>
    cases hmax.symm.trans hbound
    exact hvalue
  | below | shorter | longer => cases hcode

end Bounds

end Validation

namespace Json

/-- Only an object leads on to a value. -/
theorem isPresent_of_along? {keys : List String} (hkeys : keys ≠ []) {data value : Json}
    (hvalue : data.along? keys = some value) : isPresent (some data) = true := by
  cases keys with
  | nil => exact absurd rfl hkeys
  | cons key rest =>
    obtain ⟨next, hnext, _⟩ := Option.bind_eq_some_iff.mp hvalue
    cases data with
    | obj => rfl
    | null | bool | int | real | str | arr => cases hnext

end Json

namespace MetadataNode.Position

open Validation

variable {data value : Json}

/-- There are objects all the way down to a value, so that nothing above it is missing. -/
theorem isSkipped_of_value? {position : Position} (hvalue : position.value? data = some value) :
    position.isSkipped data = false := by
  obtain ⟨ancestors, node⟩ := position
  induction ancestors generalizing data with
  | nil => rfl
  | cons top rest ih =>
    change (under top ⟨rest, node⟩).value? data = some value at hvalue
    change (under top ⟨rest, node⟩).isSkipped data = false
    obtain ⟨next, hnext, halong⟩ := Option.bind_eq_some_iff.mp hvalue
    have hpresent := Json.isPresent_of_along? (names_ne_nil ⟨rest, node⟩) halong
    rw [value?_under] at hvalue
    rw [isSkipped_under, ih hvalue, hnext, hpresent, Bool.not_true, Bool.and_false, Bool.or_false]

theorem expectedErrors_of_value? {position : Position} (hvalue : position.value? data = some value)
    (hpresent : Json.isPresent (some value) = true) :
    position.expectedErrors data = ownErrors position.node (some value) := by
  rw [expectedErrors, isSkipped_of_value? hvalue, isAbsent, hvalue, hpresent, ownErrors_of_present hpresent]
  rfl

end MetadataNode.Position

open MetadataNode Validation

/-- What a node has to report for its value stands in the outcome of the whole validation. -/
theorem ownErrors_isInfix {data : Json} {model : List MetadataNode} {maxDepth : Nat}
    {errors : List ValidationError} (hok : validate data model maxDepth = .ok errors)
    {position : Position} (hmem : position ∈ positions model) {value : Json}
    (hvalue : position.value? data = some value) (hpresent : Json.isPresent (some value) = true) :
    ownErrors position.node (some value) <:+: errors := by
  rw [eq_faults_of_validate hok,
    faults_eq_flatMap_of_nodes fun node _ => nodeFaults_eq_flatMap data node]
  obtain ⟨before, behind, hmodel⟩ := List.append_of_mem hmem
  rw [hmodel, List.flatMap_append, List.flatMap_cons, position.expectedErrors_of_value? hvalue hpresent]
  exact ⟨_, _, List.append_assoc ..⟩

/-- A node without children is all that is validated in a model of its own. -/
theorem validate_leaf {node : MetadataNode} (hleaf : node.children = []) {data value : Json}
    (hvalue : data.get? node.name = some value) (hpresent : Json.isPresent (some value) = true)
    (depth : Nat) : validate data [node] (depth + 1) = .ok (ownErrors node (some value)) := by
  have hheight : ∀ top ∈ [node], top.height ≤ depth + 1 := by
    refine List.forall_mem_singleton.mpr (height_le_succ_iff.mpr ?_)
    rw [hleaf]
    exact List.forall_mem_nil _
  rw [validate_eq_ok (Nat.succ_pos depth) hheight, faults, List.flatMap_singleton,
    nodeFaults_of_present (by rwa [hvalue]), hvalue, hleaf, faults, List.flatMap_nil, List.append_nil]

/-- How two integers compare, and how the first one compares to the second one as a bound of numbers. Of the
two ends of a range only the first one that is violated is reported. -/
structure ComparedAsDoubles (x n : Int) : Prop where
  holds_equal_iff : Condition.Holds .equal (.int x) (.int n) ↔ rounded x = rounded n
  holds_less_iff : Condition.Holds .less (.int x) (.int n) ↔ rounded x < rounded n
  holds_greater_iff : Condition.Holds .greater (.int x) (.int n) ↔ rounded n < rounded x
  below_min_iff : ∀ node : MetadataNode, node.type = .number → node.min = Bound.read? (toString n) →
    (Reports node (.int x) .lessThanRange ↔ rounded x < rounded n)
  above_max_iff : ∀ node : MetadataNode, node.type = .number → node.max = Bound.read? (toString n) →
    (Reports node (.int x) .greaterThanRange ↔
      rounded n < rounded x ∧ ¬ Reports node (.int x) .lessThanRange)
  reported_alone : ∀ (node : MetadataNode) (data : Json) (depth : Nat), node.children = [] →
    data.get? node.name = some (.int x) →
      validate data [node] (depth + 1) = .ok (ownErrors node (some (.int x)))
  reported_within : ∀ (data : Json) (model : List MetadataNode) (maxDepth : Nat)
    (errors : List ValidationError) (position : Position), validate data model maxDepth = .ok errors →
      position ∈ positions model → position.value? data = some (.int x) →
        ownErrors position.node (some (.int x)) <:+: errors
  isRoundedTo : IsRoundedTo (spacing x.natAbs) x (rounded x) ∧ spacing x.natAbs ≤ 2048
  rounded_le : x ≤ n → rounded x ≤ rounded n
  le_rounded : n ≤ x → rounded n ≤ rounded x
  kept_apart : KeptApart x n →
    (rounded x = rounded n ↔ x = n) ∧ (rounded x < rounded n ↔ x < n) ∧ (rounded n < rounded x ↔ n < x)

/-- Integers of 64 bits are compared as the doubles nearest to them, by the operations and by the bounds that
decimal texts give. The order of two integers is never reversed by this, and it is kept where one of them is
below two to the power of 53 in size or where more than 2048 lies between them. -/
theorem integers_compare_as_doubles {x n : Int} (hx : IsWord x) (hn : IsWord n) :
    ComparedAsDoubles x n where
  holds_equal_iff := by
    rw [Condition.holds_equal_iff]
    exact equal_ofInt_iff hx hn
  holds_less_iff := by
    rw [Condition.Holds, Condition.apply, Json.bool.injEq]
    exact less_ofInt_iff hx hn
  holds_greater_iff := by
    rw [Condition.Holds, Condition.apply, Json.bool.injEq]
    exact less_ofInt_iff hn hx
  below_min_iff node htype hmin := by
    rw [Bound.read?_toString hn] at hmin
    rw [reports_lessThanRange_int_iff htype hmin, less_ofInt_iff hx hn]
  above_max_iff node htype hmax := by
    rw [Bound.read?_toString hn] at hmax
    rw [reports_greaterThanRange_int_iff htype hmax, less_ofInt_iff hn hx]
  reported_alone _ _ depth hleaf hvalue := validate_leaf hleaf hvalue rfl depth
  reported_within _ _ _ _ _ hok hmem hvalue := ownErrors_isInfix hok hmem hvalue rfl
  isRoundedTo := ⟨isRoundedTo_rounded x, spacing_le hx.natAbs_le⟩
  rounded_le := rounded_mono
  le_rounded := rounded_mono
  kept_apart hxn :=
    ⟨hxn.rounded_eq_iff hx hn, hxn.rounded_lt_iff hx hn, hxn.symm.rounded_lt_iff hn hx⟩

/-- A node for numbers between two bounds. -/
def countNode (min max : String) : MetadataNode :=
  { ofField none "count" "order.count" [] with
    type := .number, min := Bound.read? min, max := Bound.read? max }

def orderNode : MetadataNode := ofField none "order" "order" [countNode "9007199254740993" ""]

def orderData : Json := .obj [("order", .obj [("count", .int 3)])]

/-- The bound is shown as the double that it is read as. -/
def orderErrors : List ValidationError :=
  [⟨.lessThanRange, "order.count", "'order.count' field value is less than the range " ++
    "(3 is passed, the minimum is 9007199254740992)"⟩]

/-- A number far below a bound that is no double itself. -/
theorem integers_compare_as_doubles_order :
    IsWord 3 ∧ IsWord 9007199254740993 ∧ KeptApart 3 9007199254740993 ∧
      Condition.Holds .less (.int 3) (.int 9007199254740993) ∧
      Reports (countNode "9007199254740993" "") (.int 3) .lessThanRange ∧
      ¬ Reports (countNode "" "9007199254740993") (.int 3) .greaterThanRange ∧
      validate orderData [orderNode] 2 = .ok orderErrors ∧
      ownErrors (countNode "9007199254740993" "") (some (.int 3)) <:+: orderErrors := by
  have hx : IsWord 3 := by decide
  have hn : IsWord 9007199254740993 := by decide
  have hapart : KeptApart 3 9007199254740993 := by decide
  have hcompared := integers_compare_as_doubles hx hn
  have hless := (hcompared.kept_apart hapart).2.1.mpr (by decide)
  have htext : toString (9007199254740993 : Int) = "9007199254740993" := by decide
  have hmin := hcompared.below_min_iff (countNode "9007199254740993" "") rfl (by rw [htext, countNode])
  have hmax := hcompared.above_max_iff (countNode "" "9007199254740993") rfl (by rw [htext, countNode])
  have hok : validate orderData [orderNode] 2 = .ok orderErrors :=
    eq_ok_of_toOption_eq_some (by decide +kernel)
  have hchildren : orderNode.children = [countNode "9007199254740993" ""] := rfl
  have hmem : ⟨[orderNode], countNode "9007199254740993" ""⟩ ∈ positions [orderNode] := by
    rw [positions, List.flatMap_singleton, positionsFrom_eq, hchildren, positions, List.flatMap_singleton,
      positionsFrom_eq]
    exact List.mem_cons_of_mem _ (List.mem_map_of_mem List.mem_cons_self)
  have hvalue : Position.value? orderData ⟨[orderNode], countNode "9007199254740993" ""⟩ =
      some (.int 3) := rfl
  have hwithin := hcompared.reported_within _ _ _ _ _ hok hmem hvalue
  refine ⟨hx, hn, hapart, hcompared.holds_less_iff.mpr hless, hmin.mpr hless, fun hreports => ?_, hok,
    hwithin⟩
  exact Int.lt_asymm hless (hmax.mp hreports).1

/-- Two neighbours beyond two to the power of 53 are equal, and none of them lies beyond the other one as a
bound. Where the lower end of a range is above its upper end, only the lower one is reported of both. -/
theorem not_compared_exactly :
    (9007199254740992 : Int) < 9007199254740993 ∧
      Condition.Holds .equal (.int 9007199254740992) (.int 9007199254740993) ∧
      ¬ Condition.Holds .less (.int 9007199254740992) (.int 9007199254740993) ∧
      ¬ Condition.Holds .greater (.int 9007199254740993) (.int 9007199254740992) ∧
      ¬ Reports (countNode "9007199254740993" "") (.int 9007199254740992) .lessThanRange ∧
      ¬ Reports (countNode "" "9007199254740992") (.int 9007199254740993) .greaterThanRange ∧
      ¬ Reports (countNode "10" "1") (.int 5) .greaterThanRange := by
  unfold Condition.Holds Condition.apply
  simp only [Json.bool.injEq]
  decide +kernel

end DocModel
