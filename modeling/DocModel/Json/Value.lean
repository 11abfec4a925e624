import DocModel.Decimal.Rounding

/-!
Data values: the values of JSON, with integers and floating-point numbers kept apart. The entries of
an object stand in the order of their keys, each key once.
-/

namespace DocModel

/-- A data value. -/
inductive Json where
  | null
  | bool (value : Bool)
  | int (value : Int)
  | real (value : Double)
  | str (value : String)
  | arr (items : List Json)
  | obj (entries : List (String × Json))
deriving Inhabited

/-- Entries with keys, in the order of the keys. -/
abbrev Entries (α : Type) := List (String × α)

namespace Entries

variable {α : Type}

/-- The entries with one more, which takes the place of an earlier one with its key. -/
def insert (key : String) (value : α) : Entries α → Entries α
  | [] => [(key, value)]
  | (k, v) :: rest =>
    if key < k then (key, value) :: (k, v) :: rest
    else if key = k then (key, value) :: rest
    else (k, v) :: insert key value rest

/-- Entries from pairs in any order. Of two with the same key the later one stays. -/
def ofList (pairs : List (String × α)) : Entries α :=
  pairs.foldl (fun entries pair => entries.insert pair.1 pair.2) []

/-- The value of a key. -/
def get? (entries : Entries α) (key : String) : Option α :=
  (entries.find? (·.1 == key)).map (·.2)

/-- The first entries with all of the second put over them. -/
def overlay (base other : Entries α) : Entries α :=
  other.foldl (fun entries pair => entries.insert pair.1 pair.2) base

theorem get?_nil (key : String) : get? ([] : Entries α) key = none := rfl

theorem get?_insert_self (key : String) (value : α) (entries : Entries α) :
    (entries.insert key value).get? key = some value := by
  induction entries with
  | nil => simp [insert, get?]
  | cons entry rest ih =>
    obtain ⟨k, v⟩ := entry
    rw [insert]
    split
    · simp [get?]
    · split
      · simp [get?]
      · next hne =>
        have : (k == key) = false := by simpa using fun h => hne h.symm
        rw [get?, List.find?_cons, this]
        exact ih

theorem get?_insert_of_ne {key other : String} (h : other ≠ key) (value : α)
    (entries : Entries α) : (entries.insert key value).get? other = entries.get? other := by
  have hkey : (key == other) = false := by simpa using h.symm
  induction entries with
  | nil => simp [insert, get?, hkey]
  | cons entry rest ih =>
    obtain ⟨k, v⟩ := entry
    rw [insert]
    split
    · simp [get?, hkey]
    · split
      · next heq => subst heq; simp [get?, hkey]
      · rw [get?, List.find?_cons, get?, List.find?_cons]
        split
        · rfl
        · exact ih

end Entries

namespace Json

/-- The value of a key when the data are an object that has it. -/
def get? (data : Json) (key : String) : Option Json :=
  match data with
  | obj entries => Entries.get? entries key
  | _ => none

/-- An object from pairs in any order. -/
def ofPairs (pairs : List (String × Json)) : Json :=
  obj (Entries.ofList pairs)

/-- The number as a double, the nearest one for an integer. -/
def number? : Json → Option Double
  | int n => some (.ofInt n)
  | real x => some x
  | _ => none

def string? : Json → Option String
  | str s => some s
  | _ => none

mutual

/-- Structural equality: integers are equal to integers, doubles to doubles, and objects when they
have the same entries. -/
def same : Json → Json → Bool
  | null, null => true
  | bool a, bool b => a == b
  | int a, int b => a == b
  | real a, real b => a.equal b
  | str a, str b => a == b
  | arr a, arr b => sameItems a b
  | obj a, obj b => sameEntries a b
  | _, _ => false

/-- Structural equality at every position. -/
def sameItems : List Json → List Json → Bool
  | [], [] => true
  | a :: as, b :: bs => same a b && sameItems as bs
  | _, _ => false

/-- The same keys with structurally equal values. -/
def sameEntries : List (String × Json) → List (String × Json) → Bool
  | [], [] => true
  | (k, a) :: as, (l, b) :: bs => k == l && same a b && sameEntries as bs
  | _, _ => false

end

end Json

end DocModel
