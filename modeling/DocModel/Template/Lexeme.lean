import DocModel.Decimal.Reading

/-!
The words of the template language: blanks, symbols, names, literals, and paths. Every reader here
except for `path` and `quoted` skips the blanks before the word.
-/

namespace DocModel.Template

open Scanner

variable {α : Type}

/-- The blanks of the template language. -/
def isGap (c : Char) : Bool :=
  c = ' ' || c = '\t' || c = '\r' || c = '\n'

/-- Blanks, perhaps none. -/
def gap : Scanner Unit := fun s => some ((), s.dropWhile isGap)

/-- At least one blank. -/
def gap1 : Scanner Unit := do
  let _ ← run1 isGap

/-- Reads behind blanks. -/
def spaced (p : Scanner α) : Scanner α := do
  gap
  p

/-- Exactly the given word, whatever follows it. -/
def symbol (w : String) : Scanner Unit := spaced (word w)

/-- A word that stands for an operation. A blank has to follow it. -/
def operatorWord (w : String) : Scanner Unit := do
  symbol w
  let _ ← char isGap

/-- A word that stands for a value. -/
def symbolFor (w : String) (a : α) : Scanner α := do
  symbol w
  return a

/-- Readings with commas between them, at least one. -/
def commaList (p : Scanner α) : Scanner (List α) := do
  let first ← p
  let more ← many (do symbol ","; p)
  return first :: more

def isIdentStart (c : Char) : Bool := c.isAlpha || c = '_'

def isIdentChar (c : Char) : Bool := c.isAlphanum || c = '_'

/-- The characters of a name. -/
def identChars : Scanner (List Char) := do
  let c ← char isIdentStart
  let rest ← run isIdentChar
  return c :: rest

/-- A name. -/
def ident : Scanner String := do
  gap
  let name ← identChars
  return String.ofList name

/-- A minus sign, if there is one. -/
def minus : Scanner Bool := do
  let sign ← maybe (word "-")
  return sign.isSome

/-- The digits of an integer, with its sign. -/
def signedDigits : Scanner (Bool × List Char) := do
  let negative ← minus
  let digits ← Numeral.wholeDigits
  return (negative, digits)

/-- An integer of 64 bits. -/
def int : Scanner Int := do
  gap
  let (negative, digits) ← signedDigits
  let n := Double.signed negative (Numeral.natOfDigits digits)
  if Numeral.minSigned ≤ n ∧ n ≤ Numeral.maxSigned then return n else failure

/-- A number with digits before and after a point. -/
def real : Scanner Double := do
  gap
  let (negative, digits) ← signedDigits
  let part ← Numeral.partDigits
  return Double.ofDecimal negative (Numeral.natOfDigits (digits ++ part)) (-part.length)

/-- A truth value. -/
def truth : Scanner Bool :=
  symbolFor "true" true <|> symbolFor "false" false <|> symbolFor "True" true <|>
    symbolFor "False" false

def isQuote (c : Char) : Bool := c = '"' || c = '\'' || c = '\x60'

/-- The text between two quotation marks of one kind. -/
def quoted : Scanner (List Char) := do
  let mark ← char isQuote
  let inside ← run (· ≠ mark)
  let _ ← char (· = mark)
  return inside

/-- A quoted text. -/
def text : Scanner String := do
  gap
  let inside ← quoted
  return String.ofList inside

/-- A field behind a point. A field may be a number. -/
def fieldStep : Scanner Unit := do
  word "."
  let _ ← run1 isIdentChar

/-- A subscript: an integer, a quoted text, or a path, without blanks around it. -/
def subscriptStep (inner : Scanner Unit) : Scanner Unit := do
  word "["
  (do let _ ← signedDigits) <|> (do let _ ← quoted) <|> inner
  word "]"

/-- A name with fields and subscripts behind it. Subscripts may be nested less than `depth` deep. -/
def pathSteps : Nat → Scanner Unit
  | 0 => fun _ => none
  | depth + 1 => fun s =>
    (do
      let _ ← identChars
      let _ ← many (fieldStep <|> subscriptStep (pathSteps depth)) : Scanner Unit) s

/-- A path, as it is written. -/
def path (depth : Nat) : Scanner String := do
  gap
  let written ← matched (pathSteps depth)
  return String.ofList written

end DocModel.Template
