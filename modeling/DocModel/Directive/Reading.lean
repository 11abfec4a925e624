import DocModel.Directive
import DocModel.Text.Scanner

/-!
Reading directives from the text of comments. Behind the name, the text is cut into tokens from left
to right; blanks between tokens are skipped but need not be there. A strict reading fails at the
first bad token, a lenient one leaves bad tokens out.
-/

namespace DocModel.Directive

/-- A piece of the text behind the name of a directive. -/
inductive Token where
  | param (p : Param)
  | bad (text : String)
deriving DecidableEq

/-- The first character of a parameter's name. -/
def isNameStart (c : Char) : Bool := c.isAlpha

/-- A further character of a parameter's name. -/
def isNameChar (c : Char) : Bool := c.isAlphanum || c = '_'

/-- The text up to the next quotation mark, and the rest behind that mark. -/
def untilQuote? (s : List Char) : Option (List Char × List Char) :=
  match s.dropWhile (· ≠ '"') with
  | [] => none
  | _ :: rest => some (s.takeWhile (· ≠ '"'), rest)

/-- The value behind a name: an equality sign and a quoted text. -/
def assigned? : List Char → Option (List Char × List Char)
  | '=' :: '"' :: rest => untilQuote? rest
  | _ => none

/-- A token that starts with a name. -/
def nameToken (c : Char) (rest : List Char) : Token × List Char :=
  let name := String.ofList (c :: rest.takeWhile isNameChar)
  let behind := rest.dropWhile isNameChar
  match assigned? behind with
  | some (value, behind) => (.param (.named name (String.ofList value)), behind)
  | none => (.param (.flag name), behind)

/-- A token that is none of the permitted ones: everything up to the next blank. -/
def badToken (c : Char) (rest : List Char) : Token × List Char :=
  (.bad (String.ofList (c :: rest.takeWhile (!Text.isBlank ·))),
    rest.dropWhile (!Text.isBlank ·))

/-- The token that starts with the character `c`, and the rest behind it. -/
def nextToken (c : Char) (rest : List Char) : Token × List Char :=
  if c = '"' then
    match untilQuote? rest with
    | some (value, behind) => (.param (.positional (String.ofList value)), behind)
    | none => badToken c rest
  else if isNameStart c then nameToken c rest
  else badToken c rest

theorem length_dropWhile_le {α : Type} (p : α → Bool) (s : List α) :
    (s.dropWhile p).length ≤ s.length :=
  (List.dropWhile_suffix p).length_le

theorem untilQuote?_length {s value rest : List Char} (h : untilQuote? s = some (value, rest)) :
    rest.length < s.length := by
  have hle := length_dropWhile_le (· ≠ '"') s
  unfold untilQuote? at h
  split at h
  · simp at h
  · next heq =>
    simp only [Option.some.injEq, Prod.mk.injEq] at h
    rw [heq, List.length_cons] at hle
    rw [← h.2]
    omega

theorem assigned?_length {s value rest : List Char} (h : assigned? s = some (value, rest)) :
    rest.length ≤ s.length := by
  unfold assigned? at h
  split at h
  · have := untilQuote?_length h
    simp only [List.length_cons]
    omega
  · simp at h

theorem nextToken_length (c : Char) (rest : List Char) :
    (nextToken c rest).2.length ≤ rest.length := by
  have hbad : (badToken c rest).2.length ≤ rest.length := length_dropWhile_le _ rest
  have hname := length_dropWhile_le isNameChar rest
  unfold nextToken
  split
  · split
    · next h => exact Nat.le_of_lt (untilQuote?_length h)
    · exact hbad
  · split
    · unfold nameToken
      dsimp only
      split
      · next h => exact Nat.le_trans (assigned?_length h) hname
      · exact hname
    · exact hbad

/-- The tokens of a text. -/
def tokens : List Char → List Token
  | [] => []
  | c :: rest =>
    if Text.isBlank c then tokens rest
    else
      have := nextToken_length c rest
      (nextToken c rest).1 :: tokens (nextToken c rest).2
termination_by s => s.length

/-- The name of a directive and the text of its parameters, both not empty and with blanks between
them. -/
def header? : List Char → Option (List Char × List Char)
  | '@' :: text =>
    let name := text.takeWhile (!Text.isBlank ·)
    let params := Text.trimStart (text.dropWhile (!Text.isBlank ·))
    if name.isEmpty || params.isEmpty then none else some (name, params)
  | _ => none

/-- The parameters of a token list, up to the first bad token. -/
def strictParams (text : String) : List Token → Except ModelError (List Param)
  | [] => .ok []
  | .param p :: rest => (strictParams text rest).map (p :: ·)
  | .bad token :: _ => .error (.badToken token text)

/-- The parameters of a token list without its bad tokens. -/
def lenientParams (tokens : List Token) : List Param :=
  tokens.filterMap fun
    | .param p => some p
    | .bad _ => none

/-- Reads the text of a comment. A text that does not start with `@` is no directive. A malformed
directive fails in strict reading and counts as none in lenient reading. -/
def parse (comment : String) (strict : Bool) : Except ModelError (Option Directive) :=
  let text := Text.trim comment.toList
  if text.head? ≠ some '@' then .ok none
  else
    match header? text with
    | none => if strict then .error (.malformedDirective (String.ofList text)) else .ok none
    | some (name, params) =>
      let found := tokens params
      if strict then
        (strictParams (String.ofList text) found).map fun ps => some ⟨String.ofList name, ps⟩
      else .ok (some ⟨String.ofList name, lenientParams found⟩)

/-- The directives among some comments, in order. The first failure is the failure of all. -/
def parseAll (comments : List String) (strict : Bool) : Except ModelError (List Directive) := do
  let found ← comments.mapM (parse · strict)
  return found.filterMap id

end DocModel.Directive
