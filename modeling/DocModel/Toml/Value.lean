import DocModel.Json.Value

/-!
Values of TOML, and how the lines of a text build up a table. A table can be opened by a header, or
come about on the way to another key; a table that stands as a value in braces is closed.
-/

namespace DocModel

/-- How a table came about. -/
inductive TableOrigin where
  /-- By a header of its own. -/
  | header
  /-- On the way to a header. -/
  | implied
  /-- On the way to a key with dots. -/
  | dotted
  /-- As a value in braces. -/
  | braces
deriving DecidableEq

/-- A value of TOML. Dates and times are not looked into. -/
inductive Toml where
  | str (value : String)
  | int (value : Int)
  | real (value : Double)
  | bool (value : Bool)
  | moment
  | arr (items : List Toml)
  | table (origin : TableOrigin) (entries : List (String × Toml))
  /-- Tables that are opened by headers in double brackets, with the last one apart. -/
  | tables (earlier : List (List (String × Toml))) (last : List (String × Toml))

namespace Toml

/-- Changes the table at the path of a header. Tables on the way are created; of several tables
under one name the last one is taken. -/
def changeAt (change : Entries Toml → Option (Entries Toml)) :
    List String → Entries Toml → Option (Entries Toml)
  | [], entries => change entries
  | key :: rest, entries =>
    match Entries.get? entries key with
    | none => do
      let inner ← changeAt change rest []
      return Entries.insert key (table .implied inner) entries
    | some (table .braces _) => none
    | some (table origin inner) => do
      let inner ← changeAt change rest inner
      return Entries.insert key (table origin inner) entries
    | some (tables earlier last) => do
      let last ← changeAt change rest last
      return Entries.insert key (tables earlier last) entries
    | some _ => none

/-- Gives a new key a value. -/
def define (key : String) (value : Toml) (entries : Entries Toml) : Option (Entries Toml) :=
  match Entries.get? entries key with
  | none => some (Entries.insert key value entries)
  | some _ => none

/-- Opens a table by its header, which is possible once. -/
def openTable (key : String) (entries : Entries Toml) : Option (Entries Toml) :=
  match Entries.get? entries key with
  | none => some (Entries.insert key (table .header []) entries)
  | some (table .implied inner) => some (Entries.insert key (table .header inner) entries)
  | some _ => none

/-- Opens one more table under a name. -/
def openNext (key : String) (entries : Entries Toml) : Option (Entries Toml) :=
  match Entries.get? entries key with
  | none => some (Entries.insert key (tables [] []) entries)
  | some (tables earlier last) => some (Entries.insert key (tables (last :: earlier) []) entries)
  | some _ => none

/-- A path of keys, which is not empty. -/
structure KeyPath where
  parents : List String
  key : String

/-- All keys of a path. -/
def KeyPath.keys (path : KeyPath) : List String := path.parents ++ [path.key]

/-- What a line says. -/
inductive Line where
  | blank
  | header (path : KeyPath)
  | nextHeader (path : KeyPath)
  | define (path : KeyPath) (value : Toml)

/-- A table that is being built: the path of the open table, and everything so far. -/
structure Building where
  here : List String
  root : Entries Toml

/-- Nothing yet. -/
def Building.start : Building := ⟨[], []⟩

/-- Gives a value to a key that has other keys before it. Tables on the way are created. Such a key
does not reach into a table with a header, unless that is one of several under one name. The table
that the last key is put into has to be one of such keys, as `ownTable` says. -/
def putBehind (value : Toml) (key : String) (ownTable : Bool) :
    List String → Entries Toml → Option (Entries Toml)
  | [], entries => if ownTable then define key value entries else none
  | next :: rest, entries =>
    match Entries.get? entries next with
    | none => do
      let inner ← putBehind value key true rest []
      return Entries.insert next (table .dotted inner) entries
    | some (table .dotted inner) => do
      let inner ← putBehind value key true rest inner
      return Entries.insert next (table .dotted inner) entries
    | some (table .implied inner) => do
      let inner ← putBehind value key false rest inner
      return Entries.insert next (table .implied inner) entries
    | some (tables earlier last) => do
      let last ← putBehind value key false rest last
      return Entries.insert next (tables earlier last) entries
    | some _ => none

/-- Puts a definition into a table. -/
def putAt (path : KeyPath) (value : Toml) (entries : Entries Toml) : Option (Entries Toml) :=
  putBehind value path.key true path.parents entries

/-- Takes in one line. -/
def Building.add (b : Building) : Line → Option Building
  | .blank => some b
  | .header path => do
    let root ← changeAt (openTable path.key) path.parents b.root
    return ⟨path.keys, root⟩
  | .nextHeader path => do
    let root ← changeAt (openNext path.key) path.parents b.root
    return ⟨path.keys, root⟩
  | .define path value => do
    let root ← changeAt (putAt path value) b.here b.root
    return { b with root }

/-- The table that some lines build up. -/
def ofLines? (lines : List Line) : Option (Entries Toml) := do
  let b ← lines.foldlM Building.add Building.start
  return b.root

end Toml

end DocModel
