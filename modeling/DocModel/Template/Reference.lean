import DocModel.Decimal.Layout
import DocModel.Template.Pointer

/-!
References: names as they are written in a template, with fields and subscripts. A reference becomes
a pointer by way of its text. Every subscript that is neither quoted nor an index is itself a
reference, whose value takes its place; then the brackets that are left become points and quotation
marks.
-/

namespace DocModel.Template.Reference

/-- The subscripts of a reference that are not quoted. `inside` is the subscript that is open, as
the depth of its brackets and its characters in reverse; `none` is for brackets that do not close.
The first character of a subscript is not looked at. -/
def unquoted (inside : Option (Nat × List Char)) : List Char → Option (List (List Char))
  | [] => if inside.isSome then none else some []
  | c :: rest =>
    match inside with
    | some (depth, seen) =>
      if c = ']' ∧ depth = 1 then (unquoted none rest).map (seen.reverse :: ·)
      else
        let depth := if c = ']' then depth - 1 else if c = '[' then depth + 1 else depth
        unquoted (some (depth, c :: seen)) rest
    | none =>
      if c = '[' then
        match rest with
        | [] => none
        | first :: rest =>
          if first = '"' ∨ first = '\'' then unquoted none rest
          else unquoted (some (1, [first])) rest
      else unquoted none rest

/-- Whether a subscript is an index. -/
def isIndex (subscript : List Char) : Bool :=
  (Numeral.readNat? Numeral.maxUnsigned subscript).isSome

/-- The subscripts of a reference that are references. -/
def inner? (reference : List Char) : Option (List (List Char)) :=
  (unquoted none reference).map (·.filter (!isIndex ·))

/-- The text of a value in the place of a subscript: a text between quotation marks, or a number. -/
def subscriptText? : Json → Option (List Char)
  | .str s => some ('"' :: s.toList ++ ['"'])
  | .int n => some (toString n).toList
  | .real x => some x.dataText.toList
  | _ => none

/-- Puts a point and a text in the place of the first occurrence of a subscript, or at the end when
it does not occur any more. -/
def substitute (subscript text reference : List Char) : List Char :=
  match Text.cut? ('[' :: subscript ++ [']']) reference with
  | some (before, behind) => before ++ '.' :: text ++ behind
  | none => reference ++ '.' :: text

/-- What becomes of slashes and of the brackets that are left, in this order. -/
def bracketTexts : List (String × String) :=
  [("/", "~1"), ("['", ".\""), ("[\"", ".\""), ("[", "."), ("']", "\""), ("\"]", "\""), ("]", "")]

/-- A text with points and quotation marks in the place of its brackets. -/
def withoutBrackets (reference : List Char) : List Char :=
  bracketTexts.foldl (fun s pair => Text.replace pair.1.toList pair.2.toList s) reference

/-- The pointer of a reference in which subscripts are nested less than `depth` deep; `find?` gives
the values of pointers. -/
def pointerWithin? (find? : List Char → Option Json) : Nat → List Char → Option (List Char)
  | 0, _ => none
  | depth + 1, reference =>
    if reference.contains '[' then do
      let subscripts ← inner? reference
      let reference ← subscripts.foldlM (fun reference subscript => do
        let pointer ← pointerWithin? find? depth subscript
        let value ← find? pointer
        let text ← subscriptText? value
        return substitute subscript text reference) reference
      return withoutBrackets reference
    else some reference

/-- The pointer of a reference. -/
def pointer? (find? : List Char → Option Json) (reference : String) : Option (List Char) :=
  pointerWithin? find? (reference.length + 1) reference.toList

end DocModel.Template.Reference
