import DocModel.Validation

/-!
The constraints that a node puts on a value, and which violated one is reported. A node has up to four of
them: the two ends of a range, for numbers and dates, and the two ends of a length, for all values that do
not hold other values. The first violated one is reported, in this order.
-/

namespace DocModel

namespace Double

variable {a b : Double}

theorem order?_eq_lt_iff : a.order? b = some .lt ↔ a.less b = true := by
  rw [order?, less]
  cases a.place? <;> cases b.place? <;> simp [Int.compare_eq_lt]

theorem order?_eq_gt_iff : a.order? b = some .gt ↔ b.less a = true := by
  rw [order?, less]
  cases a.place? <;> cases b.place? <;> simp [Int.compare_eq_gt]

end Double

namespace Date

/-- Whether a day comes before another one in the calendar. -/
def Before (a b : Date) : Prop :=
  a.year < b.year ∨ a.year = b.year ∧ (a.month < b.month ∨ a.month = b.month ∧ a.day < b.day)

variable {a b : Date}

theorem order_eq_lt_iff : a.order b = .lt ↔ a.Before b := by
  simp only [order, Before, Ordering.then_eq_lt, Int.compare_eq_lt, Int.compare_eq_eq,
    Nat.compare_eq_lt, Nat.compare_eq_eq]

theorem order_eq_gt_iff : a.order b = .gt ↔ b.Before a := by
  rw [Before, eq_comm (a := b.year), eq_comm (a := b.month)]
  simp only [order, Ordering.then_eq_gt, Int.compare_eq_gt, Int.compare_eq_eq, Nat.compare_eq_gt,
    Nat.compare_eq_eq]

end Date

namespace Validation

/-- The numbers among the values: numbers, and texts that write one. -/
inductive HasNumber : Json → Double → Prop where
  | int (n : Int) : HasNumber (.int n) (.ofInt n)
  | real (x : Double) : HasNumber (.real x) x
  | text {s : String} {x : Double} (hread : Double.read? (Text.trim s.toList) = some x) :
      HasNumber (.str s) x

/-- The dates among the values: texts that write one. -/
inductive HasDate : Json → Date → Prop where
  | text {s : String} {day : Date} (hread : Date.read? (Text.trimmed s) = some day) :
      HasDate (.str s) day

/-- A value that is of the kind of a bound and comes before it. -/
inductive IsBelow (value : Json) : Bound → Prop where
  | number {x limit : Double} (hvalue : HasNumber value x) (hless : x.less limit = true) :
      IsBelow value (.number limit)
  | date {day limit : Date} (hvalue : HasDate value day) (hbefore : day.Before limit) :
      IsBelow value (.date limit)

/-- A value that is of the kind of a bound and comes behind it. -/
inductive IsAbove (value : Json) : Bound → Prop where
  | number {x limit : Double} (hvalue : HasNumber value x) (hless : limit.less x = true) :
      IsAbove value (.number limit)
  | date {day limit : Date} (hvalue : HasDate value day) (hbefore : limit.Before day) :
      IsAbove value (.date limit)

/-- The text whose characters make up the length of a value. -/
def textOf : Json → String
  | .str s => s
  | value => value.write

/-- The limit of a length on one side: the declared one, or for a string without one the number that
bounds it on this side. -/
inductive IsLengthLimit (type : FieldType) (bound : Option Bound) : Option Nat → Double → Prop where
  | declared (n : Nat) : IsLengthLimit type bound (some n) (.ofInt n)
  | bound {limit : Double} (htype : type = .string) (hbound : bound = some (.number limit)) :
      IsLengthLimit type bound none limit

/-- A constraint of a node that a value violates, by its kind and with its limit as messages show it. -/
inductive Violates (node : MetadataNode) (value : Json) : Breach → Prop where
  | below {bound : Bound} (htype : node.type = .number ∨ node.type = .date)
      (hbound : node.min = some bound) (hvalue : IsBelow value bound) :
      Violates node value ⟨.lessThanRange, bound.text⟩
  | above {bound : Bound} (htype : node.type = .number ∨ node.type = .date)
      (hbound : node.max = some bound) (hvalue : IsAbove value bound) :
      Violates node value ⟨.greaterThanRange, bound.text⟩
  | shorter {limit : Double} (htype : node.type ∉ [.object, .array, .mixed])
      (hlimit : IsLengthLimit node.type node.min node.minLength limit)
      (hvalue : (Double.ofInt (textOf value).length).less limit = true) :
      Violates node value ⟨.shorterThanRange, limit.plainText⟩
  | longer {limit : Double} (htype : node.type ∉ [.object, .array, .mixed])
      (hlimit : IsLengthLimit node.type node.max node.maxLength limit)
      (hvalue : limit.less (Double.ofInt (textOf value).length) = true) :
      Violates node value ⟨.longerThanRange, limit.plainText⟩

/-- The kinds of constraints, in the order in which a violated one is reported. -/
def precedence : List ValidationCode :=
  [.lessThanRange, .greaterThanRange, .shorterThanRange, .longerThanRange]

theorem numberOf?_eq_some_iff {value : Json} {x : Double} :
    numberOf? value = some x ↔ HasNumber value x := by
  constructor
  · intro hnumber
    cases value with
    | int n =>
      cases hnumber
      exact .int n
    | real =>
      cases hnumber
      exact .real _
    | str s => exact .text hnumber
    | _ => cases hnumber
  · rintro (_ | _ | hread)
    · rfl
    · rfl
    · exact hread

theorem dateOf?_eq_some_iff {value : Json} {day : Date} :
    dateOf? value = some day ↔ HasDate value day := by
  constructor
  · intro hdate
    cases value with
    | str s => exact .text hdate
    | _ => cases hdate
  · rintro ⟨hread⟩
    exact hread

theorem orderToBound?_eq_lt_iff {value : Json} {bound : Bound} :
    orderToBound? value bound = some .lt ↔ IsBelow value bound := by
  cases bound with
  | number limit =>
    simp only [orderToBound?, Option.bind_eq_some_iff, numberOf?_eq_some_iff,
      Double.order?_eq_lt_iff]
    exact ⟨fun ⟨_, hvalue, hless⟩ => .number hvalue hless,
      fun | .number hvalue hless => ⟨_, hvalue, hless⟩⟩
  | date limit =>
    simp only [orderToBound?, Option.map_eq_some_iff, dateOf?_eq_some_iff, Date.order_eq_lt_iff]
    exact ⟨fun ⟨_, hvalue, hbefore⟩ => .date hvalue hbefore,
      fun | .date hvalue hbefore => ⟨_, hvalue, hbefore⟩⟩

theorem orderToBound?_eq_gt_iff {value : Json} {bound : Bound} :
    orderToBound? value bound = some .gt ↔ IsAbove value bound := by
  cases bound with
  | number limit =>
    simp only [orderToBound?, Option.bind_eq_some_iff, numberOf?_eq_some_iff,
      Double.order?_eq_gt_iff]
    exact ⟨fun ⟨_, hvalue, hless⟩ => .number hvalue hless,
      fun | .number hvalue hless => ⟨_, hvalue, hless⟩⟩
  | date limit =>
    simp only [orderToBound?, Option.map_eq_some_iff, dateOf?_eq_some_iff, Date.order_eq_gt_iff]
    exact ⟨fun ⟨_, hvalue, hbefore⟩ => .date hvalue hbefore,
      fun | .date hvalue hbefore => ⟨_, hvalue, hbefore⟩⟩

theorem lengthLimit?_eq_some_iff {type : FieldType} {length : Option Nat} {bound : Option Bound}
    {limit : Double} :
    lengthLimit? type length bound = some limit ↔ IsLengthLimit type bound length limit := by
  cases length with
  | some n =>
    constructor
    · rintro ⟨⟩
      exact .declared n
    · rintro ⟨⟩
      rfl
  | none =>
    have hnumber : bound.bind Bound.number? = some limit ↔ bound = some (.number limit) := by
      rcases bound with _ | (_ | _) <;> simp [Bound.number?]
    rw [lengthLimit?]
    by_cases htype : type = .string
    · rw [if_pos htype, hnumber]
      exact ⟨fun hbound => .bound htype hbound, fun | .bound _ hbound => hbound⟩
    · rw [if_neg htype]
      exact iff_of_false nofun fun | .bound hstring _ => htype hstring

theorem textLength_eq (value : Json) : Json.textLength value = (textOf value).length := by
  cases value <;> rfl

theorem isRanged_iff {type : FieldType} : type.isRanged = true ↔ type = .number ∨ type = .date := by
  cases type <;> simp [FieldType.isRanged]

theorem isContainer_eq_false_iff {type : FieldType} :
    type.isContainer = false ↔ type ∉ [.object, .array, .mixed] := by
  cases type <;> simp [FieldType.isContainer]

/-- The breach of a limit, if there is such a limit for the value, and if the value does not keep it. -/
def breachOfLimit? {α : Type} (applies : Bool) (limit : Option α) (isViolated : α → Bool)
    (breach : α → Breach) : Option Breach :=
  if applies then (limit.filter isViolated).map breach else none

theorem breachOfLimit?_eq_some_iff {α : Type} {applies : Bool} {limit : Option α}
    {isViolated : α → Bool} {breachOf : α → Breach} {breach : Breach} :
    breachOfLimit? applies limit isViolated breachOf = some breach ↔
      applies = true ∧ ∃ a, limit = some a ∧ isViolated a = true ∧ breachOf a = breach := by
  rw [breachOfLimit?]
  cases applies <;> simp [Option.filter_eq_some_iff, and_assoc]

/-- The breach of one kind, whatever else is violated. -/
def breachOf? (node : MetadataNode) (value : Json) : ValidationCode → Option Breach
  | .lessThanRange =>
    breachOfLimit? node.type.isRanged node.min (fun bound => orderToBound? value bound == some .lt)
      fun bound => ⟨.lessThanRange, bound.text⟩
  | .greaterThanRange =>
    breachOfLimit? node.type.isRanged node.max (fun bound => orderToBound? value bound == some .gt)
      fun bound => ⟨.greaterThanRange, bound.text⟩
  | .shorterThanRange =>
    breachOfLimit? (!node.type.isContainer) (lengthLimit? node.type node.minLength node.min)
      (fun limit => (Double.ofInt (Json.textLength value)).less limit)
      fun limit => ⟨.shorterThanRange, limit.plainText⟩
  | .longerThanRange =>
    breachOfLimit? (!node.type.isContainer) (lengthLimit? node.type node.maxLength node.max)
      (fun limit => limit.less (Double.ofInt (Json.textLength value)))
      fun limit => ⟨.longerThanRange, limit.plainText⟩
  | .required => none

theorem findSome?_cons_eq_or {α β : Type} (f : α → Option β) (x : α) (rest : List α) :
    (x :: rest).findSome? f = (f x).or (rest.findSome? f) := by
  rw [List.findSome?_cons]
  cases f x <;> rfl

theorem breach?_eq_findSome? (node : MetadataNode) (value : Json) :
    breach? node value = precedence.findSome? (breachOf? node value) := by
  simp only [precedence, findSome?_cons_eq_or, List.findSome?_nil, Option.or_none, breachOf?,
    breachOfLimit?, breach?, rangeBreach?, lengthBreach?]
  cases node.type.isRanged <;> cases node.type.isContainer <;> simp [Option.or_assoc]

theorem breachOf?_eq_some_iff {node : MetadataNode} {value : Json} {code : ValidationCode}
    {breach : Breach} :
    breachOf? node value code = some breach ↔ breach.code = code ∧ Violates node value breach := by
  constructor
  · intro hbreach
    cases code with
    | required => cases hbreach
    | lessThanRange =>
      obtain ⟨htype, bound, hbound, hbelow, rfl⟩ := breachOfLimit?_eq_some_iff.mp hbreach
      exact ⟨rfl, .below (isRanged_iff.mp htype) hbound
        (orderToBound?_eq_lt_iff.mp (beq_iff_eq.mp hbelow))⟩
    | greaterThanRange =>
      obtain ⟨htype, bound, hbound, habove, rfl⟩ := breachOfLimit?_eq_some_iff.mp hbreach
      exact ⟨rfl, .above (isRanged_iff.mp htype) hbound
        (orderToBound?_eq_gt_iff.mp (beq_iff_eq.mp habove))⟩
    | shorterThanRange =>
      obtain ⟨htype, limit, hlimit, hless, rfl⟩ := breachOfLimit?_eq_some_iff.mp hbreach
      rw [textLength_eq] at hless
      exact ⟨rfl, .shorter (isContainer_eq_false_iff.mp (by simpa using htype))
        (lengthLimit?_eq_some_iff.mp hlimit) hless⟩
    | longerThanRange =>
      obtain ⟨htype, limit, hlimit, hless, rfl⟩ := breachOfLimit?_eq_some_iff.mp hbreach
      rw [textLength_eq] at hless
      exact ⟨rfl, .longer (isContainer_eq_false_iff.mp (by simpa using htype))
        (lengthLimit?_eq_some_iff.mp hlimit) hless⟩
  · rintro ⟨rfl, hviolated⟩
    cases hviolated with
    | below htype hbound hvalue =>
      exact breachOfLimit?_eq_some_iff.mpr ⟨isRanged_iff.mpr htype, _, hbound,
        beq_iff_eq.mpr (orderToBound?_eq_lt_iff.mpr hvalue), rfl⟩
    | above htype hbound hvalue =>
      exact breachOfLimit?_eq_some_iff.mpr ⟨isRanged_iff.mpr htype, _, hbound,
        beq_iff_eq.mpr (orderToBound?_eq_gt_iff.mpr hvalue), rfl⟩
    | shorter htype hlimit hvalue =>
      rw [← textLength_eq] at hvalue
      exact breachOfLimit?_eq_some_iff.mpr ⟨by simp [isContainer_eq_false_iff.mpr htype], _,
        lengthLimit?_eq_some_iff.mpr hlimit, hvalue, rfl⟩
    | longer htype hlimit hvalue =>
      rw [← textLength_eq] at hvalue
      exact breachOfLimit?_eq_some_iff.mpr ⟨by simp [isContainer_eq_false_iff.mpr htype], _,
        lengthLimit?_eq_some_iff.mpr hlimit, hvalue, rfl⟩

theorem breachOf?_eq_none_iff {node : MetadataNode} {value : Json} {code : ValidationCode} :
    breachOf? node value code = none ↔ ∀ breach, Violates node value breach → breach.code ≠ code := by
  rw [Option.eq_none_iff_forall_ne_some]
  simp only [ne_eq, breachOf?_eq_some_iff, not_and]
  exact ⟨fun h breach hviolated hcode => h breach hcode hviolated,
    fun h breach hcode hviolated => h breach hviolated hcode⟩

theorem code_mem_precedence {node : MetadataNode} {value : Json} {breach : Breach}
    (hviolated : Violates node value breach) : breach.code ∈ precedence := by
  cases hviolated <;> simp [precedence]

theorem breach?_eq_none_iff {node : MetadataNode} {value : Json} :
    breach? node value = none ↔ ∀ breach, ¬ Violates node value breach := by
  rw [breach?_eq_findSome?, List.findSome?_eq_none_iff]
  simp only [breachOf?_eq_none_iff]
  exact ⟨fun h breach hviolated => h _ (code_mem_precedence hviolated) breach hviolated rfl,
    fun h _ _ breach hviolated => absurd hviolated (h breach)⟩

theorem breach?_eq_some_iff {node : MetadataNode} {value : Json} {breach : Breach} :
    breach? node value = some breach ↔ Violates node value breach ∧
      ∃ earlier later, precedence = earlier ++ breach.code :: later ∧
        ∀ other, Violates node value other → other.code ∉ earlier := by
  rw [breach?_eq_findSome?, List.findSome?_eq_some_iff]
  simp only [breachOf?_eq_some_iff, breachOf?_eq_none_iff]
  constructor
  · rintro ⟨earlier, code, later, hprecedence, ⟨rfl, hviolated⟩, hearlier⟩
    exact ⟨hviolated, earlier, later, hprecedence,
      fun other hother hmem => hearlier other.code hmem other hother rfl⟩
  · rintro ⟨hviolated, earlier, later, hprecedence, hearlier⟩
    refine ⟨earlier, breach.code, later, hprecedence, ⟨rfl, hviolated⟩, ?_⟩
    rintro code hmem other hother rfl
    exact hearlier other hother hmem

section Strings

variable {node : MetadataNode}

theorem ownErrors_congr {other : MetadataNode} {value : Json}
    (hbreach : breach? other value = breach? node value) (hname : other.fieldName = node.fieldName) :
    ownErrors other (some value) = ownErrors node (some value) := by
  simp only [ownErrors, hname, hbreach]

/-- Behind a declared limit of its length, a string has no use for a bound on the same side. -/
theorem breach?_with_min (htype : node.type = .string) (hlength : node.minLength ≠ none)
    (bound : Option Bound) (value : Json) :
    breach? { node with min := bound } value = breach? node value := by
  obtain ⟨n, hn⟩ := Option.ne_none_iff_exists'.mp hlength
  simp [breach?, lengthBreach?, lengthLimit?, htype, hn, FieldType.isRanged]

theorem breach?_with_max (htype : node.type = .string) (hlength : node.maxLength ≠ none)
    (bound : Option Bound) (value : Json) :
    breach? { node with max := bound } value = breach? node value := by
  obtain ⟨n, hn⟩ := Option.ne_none_iff_exists'.mp hlength
  simp [breach?, lengthBreach?, lengthLimit?, htype, hn, FieldType.isRanged]

end Strings

/-- A value has no breach exactly if it violates no constraint of its node, and otherwise it is the first
violated one that is reported: the lower end of the range, its upper end, the lower limit of the length and
its upper one, in this order. On a string with a declared limit of its length, the bound on the same side
may be changed or left out: what is reported stays, and so does its message. -/
theorem breach?_is_first_violated (node : MetadataNode) (value : Json) :
    (breach? node value = none ↔ ∀ breach, ¬ Violates node value breach) ∧
    (∀ breach, breach? node value = some breach ↔ Violates node value breach ∧
      ∃ earlier later, [.lessThanRange, .greaterThanRange, .shorterThanRange, .longerThanRange] =
          earlier ++ breach.code :: later ∧
        ∀ other, Violates node value other → other.code ∉ earlier) ∧
    (node.type = .string → ∀ bound,
      (node.minLength ≠ none →
        breach? { node with min := bound } value = breach? node value ∧
          ownErrors { node with min := bound } (some value) = ownErrors node (some value)) ∧
      (node.maxLength ≠ none →
        breach? { node with max := bound } value = breach? node value ∧
          ownErrors { node with max := bound } (some value) = ownErrors node (some value))) := by
  refine ⟨breach?_eq_none_iff, fun _ => breach?_eq_some_iff, fun htype bound => ⟨?_, ?_⟩⟩
  · intro hlength
    have hbreach := breach?_with_min htype hlength bound value
    exact ⟨hbreach, ownErrors_congr hbreach rfl⟩
  · intro hlength
    have hbreach := breach?_with_max htype hlength bound value
    exact ⟨hbreach, ownErrors_congr hbreach rfl⟩

/-- A number that is too small and too short as a text is reported as too small. -/
example :
    let node := { MetadataNode.ofField none "n" "n" [] with
      type := .number, min := some (.number (.ofInt 10)), minLength := some 5 }
    (breach? node (.int 3)).map (·.code) = some .lessThanRange ∧
      (breach? node (.int 30)).map (·.code) = some .shorterThanRange ∧
      breach? node (.int 30000) = none := by
  decide +kernel

end Validation

end DocModel
