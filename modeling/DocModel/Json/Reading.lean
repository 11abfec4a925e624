import DocModel.Json.Number

/-!
Reading data values from text, strictly. The text is cut into tokens, and a machine with a stack of
open arrays and objects runs over them once.
-/

namespace DocModel.Json

/-- A token of a text: a structural mark, or a value that is not an array or object. -/
inductive Token where
  | openArray
  | closeArray
  | openObject
  | closeObject
  | comma
  | colon
  | scalar (value : Json)

/-- The blanks between tokens. -/
def isGap (c : Char) : Bool :=
  c = ' ' || c = '\t' || c = '\n' || c = '\r'

/-- The structural mark that a character is. -/
def markOf? : Char → Option Token
  | '[' => some .openArray
  | ']' => some .closeArray
  | '\x7b' => some .openObject
  | '\x7d' => some .closeObject
  | ',' => some .comma
  | ':' => some .colon
  | _ => none

/-- A character that can belong to a number or to one of the words. -/
def isWordChar (c : Char) : Bool :=
  !isGap c && (markOf? c).isNone && c != '"'

/-- The value that a run of word characters writes. -/
def ofWord? (word : List Char) : Option Json :=
  if word = "null".toList then some null
  else if word = "true".toList then some (bool true)
  else if word = "false".toList then some (bool false)
  else numberOfWord? word

/-- The value of a digit of base sixteen. -/
def hexValue? (c : Char) : Option Nat :=
  if c.isDigit then some (c.toNat - '0'.toNat)
  else if 'a' ≤ c && c ≤ 'f' then some (c.toNat - 'a'.toNat + 10)
  else if 'A' ≤ c && c ≤ 'F' then some (c.toNat - 'A'.toNat + 10)
  else none

/-- The unit that four digits of base sixteen write. -/
def hexUnit? (a b c d : Char) : Option Nat := do
  return (((← hexValue? a) * 16 + (← hexValue? b)) * 16 + (← hexValue? c)) * 16 + (← hexValue? d)

/-- The character of a code point that is not a surrogate. -/
def ofCodePoint? (n : Nat) : Option Char :=
  if n.isValidChar then some (Char.ofNat n) else none

/-- The character of a pair of surrogates. -/
def ofSurrogates? (high low : Nat) : Option Char :=
  if 0xD800 ≤ high ∧ high < 0xDC00 ∧ 0xDC00 ≤ low ∧ low < 0xE000 then
    ofCodePoint? (0x10000 + (high - 0xD800) * 0x400 + (low - 0xDC00))
  else none

/-- The character that a letter after a backslash stands for. -/
def escaped? : Char → Option Char
  | '"' => some '"'
  | '\\' => some '\\'
  | '/' => some '/'
  | 'b' => some '\x08'
  | 'f' => some '\x0c'
  | 'n' => some '\n'
  | 'r' => some '\r'
  | 't' => some '\t'
  | _ => none

/-- The characters up to the closing quotation mark, as they are written, and the rest behind it. A
backslash keeps the character after it from closing. -/
def quoted? : List Char → Option (List Char × List Char)
  | [] => none
  | '"' :: rest => some ([], rest)
  | '\\' :: c :: rest => (quoted? rest).map fun (text, rest) => ('\\' :: c :: text, rest)
  | c :: rest => (quoted? rest).map fun (text, rest) => (c :: text, rest)

/-- The characters that the inside of a string stands for. A surrogate counts only together with the
other half of its pair. -/
def unescape? : List Char → Option (List Char)
  | [] => some []
  | '\\' :: 'u' :: a :: b :: c :: d :: '\\' :: 'u' :: e :: f :: g :: h :: rest =>
    match (hexUnit? a b c d).bind ofCodePoint? with
    | some ch => (unescape? ('\\' :: 'u' :: e :: f :: g :: h :: rest)).map (ch :: ·)
    | none => do
      let ch ← ofSurrogates? (← hexUnit? a b c d) (← hexUnit? e f g h)
      return ch :: (← unescape? rest)
  | '\\' :: 'u' :: a :: b :: c :: d :: rest => do
    let ch ← ofCodePoint? (← hexUnit? a b c d)
    return ch :: (← unescape? rest)
  | '\\' :: c :: rest => do
    let ch ← escaped? c
    return ch :: (← unescape? rest)
  | c :: rest => if c.toNat < 32 then none else (unescape? rest).map (c :: ·)

theorem quoted?_length {s text rest : List Char} (h : quoted? s = some (text, rest)) :
    rest.length < s.length := by
  fun_induction quoted? s generalizing text rest with
  | case1 => simp at h
  | case2 => simp_all
  | case3 c tail ih =>
    obtain ⟨read, hread, heq⟩ := Option.map_eq_some_iff.1 h
    have := ih hread
    simp only [Prod.mk.injEq] at heq
    simp only [List.length_cons, ← heq.2]
    omega
  | case4 c tail _ _ ih =>
    obtain ⟨read, hread, heq⟩ := Option.map_eq_some_iff.1 h
    have := ih hread
    simp only [Prod.mk.injEq] at heq
    simp only [List.length_cons, ← heq.2]
    omega

/-- The tokens of a text. -/
def tokens? : List Char → Option (List Token)
  | [] => some []
  | c :: rest =>
    if isGap c then tokens? rest
    else
      match markOf? c with
      | some mark => (tokens? rest).map (mark :: ·)
      | none =>
        if c = '"' then
          match h : quoted? rest with
          | none => none
          | some (inside, rest') =>
            have := quoted?_length h
            match unescape? inside with
            | none => none
            | some text => (tokens? rest').map (.scalar (str (String.ofList text)) :: ·)
        else
          have := (List.dropWhile_suffix isWordChar (l := rest)).length_le
          match ofWord? (c :: rest.takeWhile isWordChar) with
          | none => none
          | some value => (tokens? (rest.dropWhile isWordChar)).map (.scalar value :: ·)
termination_by s => s.length
decreasing_by all_goals simp_wf <;> omega

/-- An array or object that is still open. The items of an array stand in reverse. -/
inductive Frame where
  | array (items : List Json)
  | object (entries : Entries Json) (key : String)

/-- What the machine expects next. -/
inductive Stage where
  /-- A value. -/
  | value (stack : List Frame)
  /-- A first item, or the end of the array. -/
  | item (stack : List Frame)
  /-- A key, or the end of the object when it is still empty. -/
  | key (stack : List Frame) (entries : Entries Json) (mayClose : Bool)
  /-- The colon behind a key. -/
  | colon (stack : List Frame) (entries : Entries Json) (key : String)
  /-- What stands behind a value. -/
  | after (stack : List Frame) (value : Json)

/-- Begins a value; an array or object may not be nested deeper than `limit`. -/
def Stage.begin (limit : Nat) (stack : List Frame) : Token → Option Stage
  | .scalar data => some (.after stack data)
  | .openArray => if stack.length < limit then some (.item stack) else none
  | .openObject => if stack.length < limit then some (.key stack [] true) else none
  | _ => none

/-- One token. -/
def Stage.next (limit : Nat) : Stage → Token → Option Stage
  | .value stack, token => begin limit stack token
  | .item stack, .closeArray => some (.after stack (arr []))
  | .item stack, token => begin limit (.array [] :: stack) token
  | .key stack _ true, .closeObject => some (.after stack (obj []))
  | .key stack entries _, .scalar (.str name) => some (.colon stack entries name)
  | .colon stack entries name, .colon => some (.value (.object entries name :: stack))
  | .after (.array items :: stack) last, .comma => some (.value (.array (last :: items) :: stack))
  | .after (.array items :: stack) last, .closeArray =>
    some (.after stack (arr (last :: items).reverse))
  | .after (.object entries name :: stack) last, .comma =>
    some (.key stack (entries.insert name last) false)
  | .after (.object entries name :: stack) last, .closeObject =>
    some (.after stack (obj (entries.insert name last)))
  | _, _ => none

/-- The value that the whole text writes, with at most `limit` arrays and objects inside each
other. -/
def read? (limit : Nat) (text : String) : Option Json := do
  let tokens ← tokens? text.toList
  match ← tokens.foldlM (Stage.next limit) (.value []) with
  | .after [] value => some value
  | _ => none

/-- The deepest nesting that data may have. -/
def maxNesting : Nat := 127

/-- The value that the whole text writes. -/
def ofText? (text : String) : Option Json :=
  read? maxNesting text

end DocModel.Json
