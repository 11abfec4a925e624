/-!
Scanners: functions that read a value from the front of a text and leave the rest. A scanner either
succeeds or fails as a whole; `p <|> q` tries `q` on the same text when `p` fails, and a repetition
goes on as long as it can and never gives back what it has read.
-/

namespace DocModel

/-- Reads an `α` from the front of a text, leaving the rest. -/
abbrev Scanner (α : Type) := StateT (List Char) Option α

namespace Scanner

variable {α β : Type}

/-- The next character, when it passes the test. -/
def char (test : Char → Bool) : Scanner Char
  | c :: rest => if test c then some (c, rest) else none
  | [] => none

/-- The longest run of characters that pass the test, perhaps empty. -/
def run (test : Char → Bool) : Scanner (List Char) :=
  fun s => some (s.takeWhile test, s.dropWhile test)

/-- The longest run of characters that pass the test, which must not be empty. -/
def run1 (test : Char → Bool) : Scanner (List Char) := fun s =>
  match s.takeWhile test with
  | [] => none
  | taken => some (taken, s.dropWhile test)

/-- The rest of a text after the given start. -/
def strip? : List Char → List Char → Option (List Char)
  | [], s => some s
  | _ :: _, [] => none
  | a :: as, c :: cs => if a = c then strip? as cs else none

/-- Exactly the given word. -/
def word (w : String) : Scanner Unit :=
  fun s => (strip? w.toList s).map ((), ·)

/-- Succeeds at the end of the text only. -/
def finish : Scanner Unit
  | [] => some ((), [])
  | _ :: _ => none

/-- The value when the scanner succeeds, and nothing read when it fails. -/
def maybe (p : Scanner α) : Scanner (Option α) := fun s =>
  match p s with
  | some (a, rest) => some (some a, rest)
  | none => some (none, s)

/-- At most `n` readings in a row, stopping at the first that fails or reads nothing. -/
def upTo (p : Scanner α) : Nat → List Char → List α × List Char
  | 0, s => ([], s)
  | n + 1, s =>
    match p s with
    | none => ([], s)
    | some (a, rest) =>
      if rest.length < s.length then
        let (more, rest) := upTo p n rest
        (a :: more, rest)
      else ([], s)

/-- As many readings in a row as the text has. -/
def many (p : Scanner α) : Scanner (List α) :=
  fun s => some (upTo p s.length s)

/-- At least one reading. -/
def many1 (p : Scanner α) : Scanner (List α) := do
  let first ← p
  let more ← many p
  return first :: more

/-- The text a scanner reads, instead of its value. -/
def matched (p : Scanner α) : Scanner (List Char) := fun s =>
  match p s with
  | some (_, rest) => some (s.take (s.length - rest.length), rest)
  | none => none

/-- The value of a scanner that reads the whole text. -/
def whole (p : Scanner α) (s : List Char) : Option α :=
  match p s with
  | some (a, []) => some a
  | _ => none

end Scanner

end DocModel
