import DocModel.HelperModule
import DocModel.Json.Writing
import DocModel.Text.Markup

/-!
The module `put`: a value, or else a fallback, as text. The coloured form is markup and escapes all
that it puts in; the plain form is text.
-/

namespace DocModel.Put

/-- The class of the coloured form, unless another one is chosen. -/
def defaultColorClass : String := "text-blue-500"

/-- A value as text; null and the empty text have none. -/
def displayText? : Json → Option String
  | .null => none
  | .str s => if s = "" then none else some s
  | value => some value.write

/-- The text of a value, or else of the argument `fallback`, or else nothing. -/
def displayed (value : Json) (args : Entries Json) : String :=
  (displayText? value <|> (args.get? "fallback").bind displayText?).getD ""

/-- A text in an element with a class. -/
def colored (colorClass text : String) : String :=
  "<span class=\"" ++ Text.escapeMarkup colorClass ++ "\">" ++ Text.escapeMarkup text ++ "</span>"

/-- The filter for the coloured form. -/
def coloredFilter (colorClass : String) : Filter where
  apply value args := .ok (.str (colored colorClass (displayed value args)))
  yieldsMarkup := true

/-- The filter for the plain form. -/
def plainFilter : Filter where
  apply value args := .ok (.str (displayed value args))
  yieldsMarkup := false

def moduleName : String := "put"

/-- The module with a class for the coloured form. -/
def helperModule (colorClass : String) : HelperModule :=
  let colored := HelperModule.helperName moduleName none
  let plain := HelperModule.helperName moduleName (some "no_color")
  { name := moduleName
    helpers := [colored, plain]
    filters := [(colored, coloredFilter colorClass), (plain, plainFilter)]
    functions := [] }

end DocModel.Put
