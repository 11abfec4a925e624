import DocModel.Date
import DocModel.Json.Reading
import DocModel.Toml.Value

/-!
Reading TOML. A text is read line by line, but the values of arrays, of tables in braces, and of
strings with three quotation marks go over several lines. Tables in braces may have a comma behind
their last entry, and the seconds of a time may be left out.
-/

namespace DocModel.Toml

open Scanner

variable {α : Type}

/-- The blanks within a line. -/
def isSpace (c : Char) : Bool := c = ' ' || c = '\t'

/-- Control characters that may not be written down. -/
def isControl (c : Char) : Bool := (c.toNat < 32 && c ≠ '\t') || c.toNat = 127

def spaces : Scanner Unit := do
  let _ ← run isSpace

/-- The end of a line. -/
def newline : Scanner Unit := word "\n" <|> word "\r\n"

/-- A comment up to the end of its line. -/
def comment : Scanner Unit := do
  word "#"
  let _ ← run (!isControl ·)

/-- Blanks, comments and ends of lines. -/
def gap : Scanner Unit := do
  let _ ← many ((do let _ ← run1 isSpace) <|> newline <|> comment)

/-- Reads between blanks of one line. -/
def spaced (p : Scanner α) : Scanner α := do
  spaces
  let a ← p
  spaces
  return a

/-- A digit of base sixteen, with its value. -/
def hexDigit : Scanner Nat
  | c :: rest => (Json.hexValue? c).map (·, rest)
  | [] => none

/-- The character whose code point is written with `count` digits of base sixteen. -/
def codePoint (count : Nat) : Scanner Char := fun s => do
  let (digits, rest) := upTo hexDigit count s
  if digits.length = count then
    let c ← Json.ofCodePoint? (digits.foldl (fun n d => 16 * n + d) 0)
    return (c, rest)
  else none

/-- The character that a letter behind a backslash stands for. -/
def escapedChar? : Char → Option Char
  | 'b' => some '\x08'
  | 't' => some '\t'
  | 'n' => some '\n'
  | 'f' => some '\x0c'
  | 'r' => some '\r'
  | 'e' => some '\x1b'
  | '"' => some '"'
  | '\\' => some '\\'
  | _ => none

/-- A letter behind a backslash. -/
def escapedChar : Scanner Char
  | c :: rest => (escapedChar? c).map (·, rest)
  | [] => none

/-- A backslash with what stands behind it. -/
def escape : Scanner (List Char) := do
  word "\\"
  let c ← (do word "x"; codePoint 2) <|> (do word "u"; codePoint 4) <|>
    (do word "U"; codePoint 8) <|> escapedChar
  return [c]

/-- A character that stands for itself between the given quotation marks. -/
def plainChar (mark : Char) : Scanner (List Char) := do
  let c ← char fun c => c ≠ mark && !isControl c && !(mark == '"' && c == '\\')
  return [c]

/-- A backslash at the end of a line, which takes away all blanks behind it. -/
def continuation : Scanner (List Char) := do
  word "\\"
  spaces
  newline
  let _ ← many ((do let _ ← run1 isSpace) <|> newline)
  return []

/-- One or two quotation marks that do not close. -/
def looseMarks (mark : Char) : Scanner (List Char) := fun s =>
  let marks := s.takeWhile (· = mark)
  if marks.length = 1 ∨ marks.length = 2 then some (marks, s.drop marks.length) else none

/-- The closing of a string with three quotation marks, up to two of which before it belong to the
string. -/
def closingMarks (mark : Char) : Scanner (List Char) := fun s =>
  let marks := s.takeWhile (· = mark)
  if 3 ≤ marks.length ∧ marks.length ≤ 5 then some (marks.drop 3, s.drop marks.length) else none

/-- A string over several lines. An end of line right behind its opening does not count; every other
one stays as it is written. -/
def multiline (mark : Char) : Scanner String := do
  word (String.ofList [mark, mark, mark])
  let _ ← maybe newline
  let pieces ← many (plainChar mark <|> matched newline <|> looseMarks mark <|>
    (if mark == '"' then continuation <|> escape else failure))
  let ending ← closingMarks mark
  return String.ofList (pieces.flatten ++ ending)

/-- A string within a line. -/
def quoted (mark : Char) : Scanner String := do
  let _ ← char (· = mark)
  let pieces ← many (plainChar mark <|> (if mark == '"' then escape else failure))
  let _ ← char (· = mark)
  return String.ofList pieces.flatten

/-- A string of any kind. -/
def string : Scanner String :=
  multiline '"' <|> multiline '\'' <|> quoted '"' <|> quoted '\''

def isBareKeyChar (c : Char) : Bool := c.isAlphanum || c = '_' || c = '-'

/-- A key without dots. -/
def simpleKey : Scanner String :=
  (do let name ← run1 isBareKeyChar; return String.ofList name) <|> quoted '"' <|> quoted '\''

/-- The deepest nesting of brackets and braces, and the largest number of keys with dots between
them. -/
def maxNesting : Nat := 80

/-- A key, perhaps with dots. -/
def keyPath : Scanner KeyPath := do
  let first ← spaced simpleKey
  let more ← many (do word "."; spaced simpleKey)
  if maxNesting ≤ more.length then failure
  return ⟨(first :: more).dropLast, more.getLastD first⟩

/-- Digits with single underscores between them. -/
def digits (isDigit : Char → Bool) : Scanner (List Char) := do
  let first ← char isDigit
  let more ← many (do
    let _ ← maybe (word "_")
    char isDigit)
  return first :: more

/-- The digits of a whole number, which do not start with a zero unless it is the only one. -/
def wholeDigits : Scanner (List Char) := do
  let ds ← digits Char.isDigit
  if ds.head? = some '0' ∧ ds ≠ ['0'] then failure
  return ds

/-- A whole number in another base, behind the mark of that base. -/
def inBase (mark : String) (base : Nat) (isDigit : Char → Bool) : Scanner Int := do
  word mark
  let ds ← digits isDigit
  return (ds.foldl (fun n c => base * n + (Json.hexValue? c).getD 0) 0 : Nat)

/-- The least whole number, the least signed one of 128 bits. -/
def leastNumber : Int := -170141183460469231731687303715884105728

/-- The greatest whole number, the greatest unsigned one of 128 bits. -/
def greatestNumber : Int := 340282366920938463463374607431768211455

/-- A whole number. -/
def wholeNumber : Scanner Int := do
  let n ← inBase "0x" 16 (fun c => (Json.hexValue? c).isSome) <|>
    inBase "0o" 8 (fun c => '0' ≤ c && c ≤ '7') <|>
    inBase "0b" 2 (fun c => c = '0' || c = '1') <|> do
      let negative ← Numeral.sign
      let ds ← wholeDigits
      return Double.signed negative (Numeral.natOfDigits ds)
  if leastNumber ≤ n ∧ n ≤ greatestNumber then return n else failure

/-- The exponent of a number. -/
def exponent : Scanner Int := do
  let _ ← char fun c => c = 'e' || c = 'E'
  let negative ← Numeral.sign
  let ds ← digits Char.isDigit
  return Double.signed negative (Numeral.natOfDigits ds)

/-- A number that is not written as a whole one. One that is written with digits is finite. -/
def fractional : Scanner Double := do
  let negative ← Numeral.sign
  (do word "inf"; return .infinite negative) <|> (do word "nan"; return .nan) <|> do
    let ds ← wholeDigits
    let part ← maybe (do word "."; digits Char.isDigit)
    let power ← maybe exponent
    if part.isNone && power.isNone then failure
    let part := part.getD []
    let x := Double.ofDecimal negative (Numeral.natOfDigits (ds ++ part))
      (power.getD 0 - part.length)
    if x.isFinite then return x else failure

/-- A day of the calendar. -/
def day : Scanner Unit := do
  let y ← Date.exactDigits 4
  word "-"
  let m ← Date.exactDigits 2
  word "-"
  let d ← Date.exactDigits 2
  if Calendar.HasDay y m d then return () else failure

/-- A time of the day. -/
def time : Scanner Unit := do
  Date.twoDigits 24
  word ":"
  Date.twoDigits 60
  let _ ← maybe (do
    word ":"
    Date.twoDigits 61
    maybe Date.secondFraction)

/-- A day, a time, or both with an optional offset. -/
def dayOrTime : Scanner Unit :=
  (do
    day
    let _ ← maybe (do
      let _ ← char fun c => c = 'T' || c = 't' || c = ' '
      time
      maybe (Date.offset Date.isOffsetSign))) <|> time

/-- Succeeds where a value can end. -/
def ended : Scanner Unit
  | [] => some ((), [])
  | c :: rest =>
    if isSpace c || isControl c || c = ',' || c = ']' || c = '\x7d' || c = '#' then
      some ((), c :: rest)
    else none

/-- A value without parts. -/
def scalar : Scanner Toml := do
  (do dayOrTime; ended; return .moment) <|>
    (do let x ← fractional; ended; return .real x) <|>
    (do let n ← wholeNumber; ended; return .int n) <|>
    (do word "true"; ended; return .bool true) <|> do
      word "false"
      ended
      return .bool false

/-- Items with commas between them and perhaps behind the last one. -/
def items (item : Scanner α) : Scanner (List α) :=
  (do
    let first ← item
    let more ← many (do word ","; item)
    let _ ← maybe (word ",")
    gap
    return first :: more) <|> do gap; return []

/-- Reads between blanks that may go over lines. -/
def surrounded (p : Scanner α) : Scanner α := do
  gap
  let a ← p
  gap
  return a

/-- A key with its value. -/
def definition (value : Scanner Toml) : Scanner (KeyPath × Toml) := do
  let path ← keyPath
  word "="
  spaces
  let v ← value
  return (path, v)

/-- The table that some definitions in braces make up. -/
def ofDefinitions? (definitions : List (KeyPath × Toml)) : Option Toml := do
  let entries ← definitions.foldlM (fun entries d => putAt d.1 d.2 entries) []
  return .table .braces entries

/-- A value in which brackets and braces are nested at most `depth` deep. -/
def value : Nat → Scanner Toml
  | 0 => Toml.str <$> string <|> scalar
  | depth + 1 => fun s =>
    (Toml.str <$> string <|>
      (do
        word "["
        let values ← items (surrounded (value depth))
        word "]"
        return .arr values) <|>
      (do
        word "\x7b"
        let definitions ← items (surrounded (definition (value depth)))
        word "\x7d"
        match ofDefinitions? definitions with
        | some v => return v
        | none => failure) <|>
      scalar) s

/-- What a line says, without the end of the line. -/
def line : Scanner Line := do
  spaces
  let said ← (do
      word "[["
      let path ← keyPath
      word "]]"
      return .nextHeader path) <|>
    (do
      word "["
      let path ← keyPath
      word "]"
      return .header path) <|>
    (do
      let (path, v) ← definition (value maxNesting)
      return .define path v) <|> return .blank
  spaces
  let _ ← maybe comment
  return said

/-- All lines of a text. -/
def document : Scanner (List Line) := do
  let _ ← maybe (word "\ufeff")
  let first ← line
  let more ← many (do newline; line)
  return first :: more

/-- The table that the whole text writes. -/
def ofText? (text : String) : Option (Entries Toml) :=
  (whole document text.toList).bind ofLines?

end DocModel.Toml
