import DocModel.Proofs.Json.Entries
import DocModel.Proofs.Metadata.Coverage
import DocModel.Proofs.Validation.Preorder

/-!
Which data have a part in a validation. The values at the leaves of a model do, and of the values above
them only whether they are given and how they are missing. What no node of the model names has none.
-/

namespace DocModel

namespace Json

/-- Values that are missing in the same way, or both given, whatever they are. -/
inductive Alike : Option Json → Option Json → Prop
  | missing : Alike none none
  | null : Alike (some .null) (some .null)
  | empty : Alike (some (.str "")) (some (.str ""))
  | present {value other : Option Json} (hvalue : isPresent value = true)
      (hother : isPresent other = true) : Alike value other

theorem Alike.refl (value : Option Json) : Alike value value := by
  cases hvalue : isPresent value with
  | true => exact .present hvalue hvalue
  | false =>
    cases value with
    | none => exact .missing
    | some data =>
      cases data with
      | null => exact .null
      | str text =>
        obtain rfl : text = "" := by simpa [isPresent] using hvalue
        exact .empty
      | bool | int | real | arr | obj => cases hvalue

theorem Alike.eq_or_present {value other : Option Json} (halike : Alike value other) :
    value = other ∨ isPresent value = true ∧ isPresent other = true := by
  cases halike with
  | missing | null | empty => exact .inl rfl
  | present hvalue hother => exact .inr ⟨hvalue, hother⟩

/-- The data with one entry changed in the object that some keys lead to: another value for a key, or none.
Where no object stands nothing changes. -/
def setAt (key : String) (value : Option Json) : List String → Json → Json
  | [], obj entries =>
    obj (match value with
      | some value => Entries.insert key value entries
      | none => Entries.erase key entries)
  | step :: way, obj entries =>
    obj (match Entries.get? entries step with
      | some below => Entries.insert step (setAt key value way below) entries
      | none => entries)
  | _, data => data

section SetAt

variable (key : String) (value : Option Json)

theorem get?_setAt_nil {name : String} (hne : name ≠ key) (data : Json) :
    (setAt key value [] data).get? name = data.get? name := by
  cases data with
  | obj entries =>
    cases value with
    | some value => exact Entries.get?_insert_of_ne hne value entries
    | none => exact Entries.get?_erase_of_ne hne entries
  | null | bool | int | real | str | arr => rfl

theorem get?_setAt_of_ne {name step : String} (hne : name ≠ step) (way : List String) (data : Json) :
    (setAt key value (step :: way) data).get? name = data.get? name := by
  cases data with
  | obj entries =>
    rw [setAt]
    cases Entries.get? entries step with
    | some below => exact Entries.get?_insert_of_ne hne _ entries
    | none => rfl
  | null | bool | int | real | str | arr => rfl

theorem get?_setAt_self (step : String) (way : List String) (data : Json) :
    (setAt key value (step :: way) data).get? step = (data.get? step).map (setAt key value way) := by
  cases data with
  | obj entries =>
    rw [setAt]
    cases hbelow : Entries.get? entries step with
    | some below => simp [get?, hbelow, Entries.get?_insert_self]
    | none => simp [get?, hbelow]
  | null | bool | int | real | str | arr => rfl

/-- Data that are no object stay as they are, and an object stays one. -/
theorem setAt_cases (way : List String) (data : Json) :
    setAt key value way data = data ∨
      ∃ entries changed, data = obj entries ∧ setAt key value way data = obj changed := by
  cases data with
  | obj entries =>
    cases way with
    | nil => exact .inr ⟨entries, _, rfl, rfl⟩
    | cons step way => exact .inr ⟨entries, _, rfl, rfl⟩
  | null | bool | int | real | str | arr => cases way <;> exact .inl rfl

theorem alike_setAt (way : List String) (found : Option Json) :
    Alike (found.map (setAt key value way)) found := by
  cases found with
  | none => exact .missing
  | some data =>
    rcases setAt_cases key value way data with hsame | ⟨entries, changed, rfl, hchanged⟩
    · rw [Option.map_some, hsame]
      exact .refl _
    · rw [Option.map_some, hchanged]
      exact .present rfl rfl

end SetAt

end Json

namespace MetadataNode

open Validation

/-- Data look the same to a model: the values of a leaf are equal, and those of a node with children are
missing in the same way or both given. -/
def SeenAlike (nodes : List MetadataNode) (data other : Json) : Prop :=
  ∀ position ∈ positions nodes,
    (position.node.children = [] → position.value? data = position.value? other) ∧
      (position.node.children ≠ [] → Json.Alike (position.value? data) (position.value? other))

theorem SeenAlike.refl (nodes : List MetadataNode) (data : Json) : SeenAlike nodes data data :=
  fun _ _ => ⟨fun _ => rfl, fun _ => .refl _⟩

theorem forall_mem_positions_iff {p : Position → Prop} {nodes : List MetadataNode} :
    (∀ position ∈ positions nodes, p position) ↔
      ∀ node ∈ nodes, p ⟨[], node⟩ ∧
        ∀ position ∈ positions node.children, p (Position.under node position) := by
  rw [positions, List.forall_mem_flatMap]
  refine forall₂_congr fun node _ => ?_
  rw [positionsFrom_eq, List.forall_mem_cons, List.forall_mem_map]

/-- Data look the same to some siblings when their values do, and what is below them does as well. -/
theorem seenAlike_iff {nodes : List MetadataNode} {data other : Json} :
    SeenAlike nodes data other ↔
      ∀ node ∈ nodes,
        ((node.children = [] → data.get? node.name = other.get? node.name) ∧
          (node.children ≠ [] → Json.Alike (data.get? node.name) (other.get? node.name))) ∧
        SeenAlike node.children (nestedData (data.get? node.name))
          (nestedData (other.get? node.name)) := by
  rw [SeenAlike, forall_mem_positions_iff]
  simp only [Position.value?_top, Position.value?_under]
  rfl

/-- A way and a key behind it lead to no node of the model, and to no place within the value of a leaf. -/
def IsUnnamed (nodes : List MetadataNode) (way : List String) (key : String) : Prop :=
  ∀ position ∈ positions nodes, position.names <+: way ++ [key] →
    position.node.children ≠ [] ∧ position.names ≠ way ++ [key]

theorem IsUnnamed.name_ne {nodes : List MetadataNode} {key : String}
    (hunnamed : IsUnnamed nodes [] key) {node : MetadataNode} (hnode : node ∈ nodes) :
    node.name ≠ key := by
  rintro rfl
  have htop := (forall_mem_positions_iff.mp hunnamed node hnode).1
  exact (htop (List.prefix_refl _)).2 rfl

theorem IsUnnamed.below {nodes : List MetadataNode} {way : List String} {key : String}
    {node : MetadataNode} (hnode : node ∈ nodes)
    (hunnamed : IsUnnamed nodes (node.name :: way) key) :
    node.children ≠ [] ∧ IsUnnamed node.children way key := by
  obtain ⟨htop, hbelow⟩ := forall_mem_positions_iff.mp hunnamed node hnode
  constructor
  · exact (htop ⟨way ++ [key], rfl⟩).1
  · intro position hmem hprefix
    obtain ⟨hne, hnames⟩ := hbelow position hmem ((List.cons_prefix_cons).mpr ⟨rfl, hprefix⟩)
    exact ⟨hne, fun heq => hnames (congrArg (node.name :: ·) heq)⟩

/-- A change at a place that the model does not name is not seen. -/
theorem IsUnnamed.seenAlike_setAt {nodes : List MetadataNode} {way : List String} {key : String}
    (hunnamed : IsUnnamed nodes way key) (value : Option Json) (data : Json) :
    SeenAlike nodes (data.setAt key value way) data := by
  induction way generalizing nodes data with
  | nil =>
    refine seenAlike_iff.mpr fun node hnode => ?_
    rw [Json.get?_setAt_nil key value (hunnamed.name_ne hnode)]
    exact ⟨⟨fun _ => rfl, fun _ => .refl _⟩, .refl _ _⟩
  | cons step way ih =>
    refine seenAlike_iff.mpr fun node hnode => ?_
    by_cases hname : node.name = step
    · subst hname
      obtain ⟨hne, hbelow⟩ := hunnamed.below hnode
      rw [Json.get?_setAt_self]
      refine ⟨⟨fun hleaf => absurd hleaf hne, fun _ => Json.alike_setAt key value way _⟩, ?_⟩
      cases data.get? node.name with
      | none => exact .refl _ _
      | some found =>
        rcases Json.setAt_cases key value way found with hsame | ⟨entries, changed, rfl, hchanged⟩
        · rw [Option.map_some, hsame]
          exact .refl _ _
        · have hinner := ih hbelow (.obj entries)
          rw [hchanged] at hinner
          rw [Option.map_some, hchanged]
          exact hinner
    · rw [Json.get?_setAt_of_ne key value hname]
      exact ⟨⟨fun _ => rfl, fun _ => .refl _⟩, .refl _ _⟩

end MetadataNode

namespace Validation

open MetadataNode

theorem ownErrors_of_object {node : MetadataNode} (htype : node.type = .object)
    (value : Option Json) : ownErrors node value = [] := by
  cases value with
  | none => rfl
  | some data => simp [ownErrors, breach?, htype, FieldType.isRanged, FieldType.isContainer]

/-- The nodes with children are objects, as decoration makes them. -/
def GroupsAreObjects (nodes : List MetadataNode) : Prop :=
  ∀ position ∈ positions nodes, position.node.children ≠ [] → position.node.type = .object

theorem groupsAreObjects_of_model {trie : PathTrie} {fields : List Field} {helpers : List String}
    {maxDepth : Nat} {nodes : List MetadataNode}
    (hbuilt : model trie fields helpers maxDepth = .ok nodes) : GroupsAreObjects nodes := by
  rw [eq_decoratedForest_of_model hbuilt]
  exact fun position hmem => (described_of_mem_positions hmem).type_of_children

/-- What is reported for a node, in the depth that is left, depends on its value alone. -/
theorem guardedFaults_congr {maxDepth depth : Nat} {data other : Json} {node : MetadataNode}
    (hvalue : data.get? node.name = other.get? node.name) :
    guardedFaults maxDepth depth data node = guardedFaults maxDepth depth other node := by
  rw [guardedFaults, hvalue, ← guardedFaults]

/-- A node that is given and has children reports what is below it and nothing of its own. -/
theorem guardedFaults_of_group {maxDepth depth : Nat} {data : Json} {node : MetadataNode}
    (hgroup : node.children ≠ []) (htype : node.type = .object)
    (hpresent : Json.isPresent (data.get? node.name) = true) :
    guardedFaults maxDepth depth data node =
      errorsAt maxDepth depth (nestedData (data.get? node.name)) node.children := by
  rw [guardedFaults]
  simp only [hpresent, ownErrors_of_object htype, List.isEmpty_iff, hgroup]
  exact bind_pure _

/-- A level that sees no difference between some data reports the same for them, or fails for them in the
same way. -/
theorem errorsAt_eq_of_seenAlike {maxDepth depth : Nat} {data other : Json}
    {nodes : List MetadataNode} (hobjects : GroupsAreObjects nodes)
    (halike : SeenAlike nodes data other) :
    errorsAt maxDepth depth data nodes = errorsAt maxDepth depth other nodes := by
  induction depth generalizing nodes data other with
  | zero => rfl
  | succ depth ih =>
    rw [errorsAt_succ, errorsAt_succ]
    refine congrArg _ (mapM_congr fun node hnode => ?_)
    obtain ⟨⟨hleaf, hgroup⟩, hbelow⟩ := seenAlike_iff.mp halike node hnode
    obtain ⟨htype, hinner⟩ := forall_mem_positions_iff.mp hobjects node hnode
    by_cases hchildren : node.children = []
    · exact guardedFaults_congr (hleaf hchildren)
    · rcases (hgroup hchildren).eq_or_present with hvalue | ⟨hpresent, hpresent'⟩
      · exact guardedFaults_congr hvalue
      · rw [guardedFaults_of_group hchildren (htype hchildren) hpresent,
          guardedFaults_of_group hchildren (htype hchildren) hpresent']
        exact ih hinner hbelow

end Validation

open MetadataNode Validation

/-- Data that look the same to a model are validated against it with the same result, messages included,
under any bound. And an entry that is added, changed or left out where the model names nothing
changes nothing. -/
theorem validate_eq_of_seenAlike {trie : PathTrie} {fields : List Field} {helpers : List String}
    {builtDepth : Nat} {nodes : List MetadataNode}
    (hbuilt : model trie fields helpers builtDepth = .ok nodes) (maxDepth : Nat) :
    (∀ data other, SeenAlike nodes data other →
      validate data nodes maxDepth = validate other nodes maxDepth) ∧
    ∀ way key, IsUnnamed nodes way key → ∀ value data,
      validate (data.setAt key value way) nodes maxDepth = validate data nodes maxDepth := by
  have hobjects := groupsAreObjects_of_model hbuilt
  refine ⟨fun data other halike => errorsAt_eq_of_seenAlike hobjects halike, ?_⟩
  intro way key hunnamed value data
  exact errorsAt_eq_of_seenAlike hobjects (hunnamed.seenAlike_setAt value data)

/-- A guest whose name must be given. -/
def guestTrie : PathTrie := ⟨[⟨"guest", [⟨"name", []⟩]⟩]⟩

def guestFields : List Field := [{ Field.bare "guest.name" with isRequired := true }]

def guestNodes : List MetadataNode :=
  let name := ofField (some { Field.bare "guest.name" with isRequired := true }) "name" "guest.name" []
  [ofField none "guest" "guest" [name]]

/-- A guest that is a text, and one that is an object without a name; neither has a name. -/
def textGuest : Json := .obj [("guest", .str "Ann")]

def oldGuest : Json := .obj [("guest", .obj [("age", .int 90)]), ("note", .null)]

theorem seenAlike_guests : SeenAlike guestNodes textGuest oldGuest := by
  refine seenAlike_iff.mpr (List.forall_mem_singleton.mpr ⟨⟨nofun, fun _ => .present rfl rfl⟩, ?_⟩)
  refine seenAlike_iff.mpr (List.forall_mem_singleton.mpr ⟨⟨fun _ => rfl, fun h => absurd rfl h⟩, ?_⟩)
  exact .refl _ _

theorem isUnnamed_age : IsUnnamed guestNodes ["guest"] "age" := by
  refine forall_mem_positions_iff.mpr (List.forall_mem_singleton.mpr ⟨?_, ?_⟩)
  · exact fun _ => ⟨nofun, by decide⟩
  · refine forall_mem_positions_iff.mpr (List.forall_mem_singleton.mpr ⟨?_, nofun⟩)
    exact fun hprefix => absurd hprefix (by decide)

/-- Both guests lack a name and nothing else counts, the age of one of them included. -/
theorem validate_eq_of_seenAlike_guests :
    model guestTrie guestFields [] 2 = .ok guestNodes ∧
      SeenAlike guestNodes textGuest oldGuest ∧
      validate textGuest guestNodes 2 = validate oldGuest guestNodes 2 ∧
      validate oldGuest guestNodes 2 =
        .ok [⟨.required, "guest.name", "Field 'guest.name' is required (undefined is passed)"⟩] ∧
      IsUnnamed guestNodes ["guest"] "age" ∧
      validate (oldGuest.setAt "age" none ["guest"]) guestNodes 2 = validate oldGuest guestNodes 2 := by
  have hbuilt : model guestTrie guestFields [] 2 = .ok guestNodes := rfl
  obtain ⟨hseen, hunnamed⟩ := validate_eq_of_seenAlike hbuilt 2
  exact ⟨hbuilt, seenAlike_guests, hseen _ _ seenAlike_guests,
    eq_ok_of_toOption_eq_some (by decide +kernel), isUnnamed_age,
    hunnamed _ _ isUnnamed_age none oldGuest⟩

end DocModel
