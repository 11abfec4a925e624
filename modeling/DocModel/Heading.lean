import DocModel.Text.Blank
import DocModel.Text.Category
import DocModel.Text.Strip

/-!
The title of a document from its first heading of the first level. The title keeps the letters and
numbers of the heading, with single spaces for its blanks.
-/

namespace DocModel.Heading

/-- The rest behind the name of the heading element, in either case. -/
def elementName? : List Char → Option (List Char)
  | 'h' :: '1' :: rest => some rest
  | 'H' :: '1' :: rest => some rest
  | _ => none

/-- The rest behind an opening tag, which may have attributes behind a blank. -/
def openingTag? : List Char → Option (List Char)
  | '<' :: rest =>
    match elementName? rest with
    | some ('>' :: inside) => some inside
    | some (c :: rest) =>
      if Text.isBlank c then (rest.dropWhile (· ≠ '>')).tail? else none
    | _ => none
  | _ => none

/-- Whether a closing tag stands here. Blanks may stand before its end. -/
def isClosingTag : List Char → Bool
  | '<' :: '/' :: rest =>
    match elementName? rest with
    | some rest => (Text.trimStart rest).head? == some '>'
    | none => false
  | _ => false

/-- The text up to the first closing tag. -/
def untilClosing? : List Char → Option (List Char)
  | [] => none
  | c :: rest =>
    if isClosingTag (c :: rest) then some [] else (untilClosing? rest).map (c :: ·)

/-- What is inside the first heading that is opened and closed. -/
def first? : List Char → Option (List Char)
  | [] => none
  | c :: rest => (openingTag? (c :: rest)).bind untilClosing? <|> first? rest

/-- A text with one space for every run of blanks. Blanks at the start are dropped when they follow
one that has been written. -/
def collapse (afterBlank : Bool) : List Char → List Char
  | [] => []
  | c :: rest =>
    if Text.isBlank c then
      if afterBlank then collapse true rest else ' ' :: collapse true rest
    else c :: collapse false rest

/-- The characters that a title keeps. -/
def isKept (c : Char) : Bool :=
  Text.isLetter c || Text.isNumber c || Text.isBlank c

/-- The inside of a heading as a title: without tags, with single spaces for blanks, without other
characters than letters and numbers, and trimmed. -/
def clean (inside : List Char) : List Char :=
  Text.trim ((collapse false (Text.strip '<' '>' inside)).filter isKept)

/-- The title that some texts give: from the first heading in the first text that has one. -/
def title? (texts : List String) : Option String :=
  match texts.findSome? fun text => first? text.toList with
  | none => none
  | some inside =>
    match clean inside with
    | [] => none
    | title => some (String.ofList title)

end DocModel.Heading
