import DocModel.Decimal.Reading
import DocModel.Json.Value
import DocModel.Text.Replace

/-!
Pointers: keys with points between them, which lead from a value to a value inside of it. A point
between quotation marks belongs to its key, and a backslash takes the meaning from the character
behind it. In a key, `~1` stands for a slash and `~0` for a tilde.
-/

namespace DocModel.Template

/-- What is open at some place of a pointer: quotation marks of two kinds, and a backslash. -/
structure Quoting where
  double : Bool
  single : Bool
  escaped : Bool

namespace Quoting

/-- Nothing is open. -/
def none : Quoting := ⟨false, false, false⟩

/-- Whether a character ends the key before it. A quotation mark of the other kind does so, too. -/
def ends (q : Quoting) (c : Char) : Bool :=
  !q.escaped && (c = '"' || c = '\'' || (c = '.' && !q.double && !q.single))

/-- What is open behind a character. -/
def behind (q : Quoting) (c : Char) : Quoting :=
  if c = '\\' then { q with escaped := true }
  else if q.escaped then { q with escaped := false }
  else if c = '"' then { q with double := !q.double }
  else if c = '\'' then { q with single := !q.single }
  else q

end Quoting

namespace Pointer

/-- The start of the next key, behind everything that ends keys. -/
def skipEnds (q : Quoting) : List Char → Quoting × List Char
  | [] => (q, [])
  | c :: rest => if q.ends c then skipEnds (q.behind c) rest else (q, c :: rest)

/-- The number of characters before the one that ends the key, and what is open behind that one;
`none` when the key goes on to the end. -/
def keyLength? (q : Quoting) : List Char → Option (Nat × Quoting)
  | [] => none
  | c :: rest =>
    if q.ends c then some (0, q.behind c)
    else (keyLength? (q.behind c) rest).map fun (count, q) => (count + 1, q)

/-- At most `most` keys from the front of a text. The length of a key is counted in characters but
taken in bytes, so that a key with characters of several bytes ends early, unless it goes on to the
end; there are no keys when one would end inside a character. -/
def keysFrom : Nat → Quoting → List Char → Option (List (List Char))
  | 0, _, _ => some []
  | most + 1, q, s =>
    match skipEnds q s with
    | (_, []) => some []
    | (q, s) =>
      match keyLength? q s with
      | none => some [s]
      | some (count, q) => do
        let (key, rest) ← Text.splitBytes? count s
        let (_, rest) ← Text.splitBytes? 1 rest
        let more ← keysFrom most q rest
        return key :: more

/-- A key with its tildes read. -/
def plainKey (key : List Char) : String :=
  String.ofList (Text.replace "~0".toList "~".toList (Text.replace "~1".toList "/".toList key))

/-- The keys of a pointer. -/
def keys? (pointer : List Char) : Option (List String) :=
  (keysFrom pointer.length Quoting.none pointer).map (·.map plainKey)

/-- The text before the first point of a pointer, and the text behind it if there is one. -/
def splitHead (pointer : List Char) : String × Option (List Char) :=
  let head := String.ofList (pointer.takeWhile (· ≠ '.'))
  match pointer.dropWhile (· ≠ '.') with
  | [] => (head, none)
  | _ :: tail => (head, some tail)

end Pointer

/-- The index that a key stands for in an array: digits without a sign and without leading zeros. -/
def indexOf? (key : String) : Option Nat :=
  match key.toList with
  | '+' :: _ => none
  | '0' :: _ :: _ => none
  | digits => Numeral.readNat? Numeral.maxUnsigned digits

/-- The value at a key of an object or array. -/
def child? (data : Json) (key : String) : Option Json :=
  match data with
  | .obj entries => Entries.get? entries key
  | .arr items => (indexOf? key).bind fun i => items[i]?
  | _ => none

/-- The value that a pointer leads to. A pointer without keys leads to the value itself. -/
def follow? (data : Json) (pointer : List Char) : Option Json := do
  let keys ← Pointer.keys? pointer
  keys.foldlM child? data

end DocModel.Template
