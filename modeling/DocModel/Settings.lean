import DocModel.Decimal.Reading
import DocModel.Directive
import DocModel.DocumentError
import DocModel.Text.Blank
import DocModel.Text.Split

/-!
The settings that a template declares for its document.
-/

namespace DocModel

/-- The settings of a document. -/
structure DocumentSettings where
  version : Option String
  lang : Option String
  title : Option String
  timeZone : Option String
  lineHeight : Option Double
  /-- The modules that the template uses, in the order of their declarations. -/
  modules : List String

namespace DocumentSettings

/-- The value of the first directive with a name. A later directive does not count, even when the
first one has no value. -/
def first? (directives : List Directive) (name : String) : Option String :=
  (directives.find? (·.name == name)).bind Directive.firstPositional?

/-- The names in a list with commas, trimmed and without empty ones. -/
def splitNames (text : String) : List String :=
  ((Text.split ',' text.toList).map fun name => String.ofList (Text.trim name)).filter (· ≠ "")

/-- The modules that all directives of that kind name together. -/
def usedModules (directives : List Directive) : List String :=
  ((directives.filter (·.name == "use")).flatMap Directive.positionals).flatMap splitNames

/-- The line height, which has to be a number when it is set. -/
def lineHeight? (directives : List Directive) : Except DocumentError (Option Double) :=
  match first? directives "lineHeight" with
  | none => .ok none
  | some text =>
    match Double.read? (Text.trim text.toList) with
    | some x => .ok (some x)
    | none => .error (.invalidSetting "lineHeight" text)

/-- The settings that some directives declare. -/
def ofDirectives (directives : List Directive) : Except DocumentError DocumentSettings := do
  let lineHeight ← lineHeight? directives
  return {
    version := first? directives "v"
    lang := first? directives "lang"
    title := first? directives "title"
    timeZone := first? directives "timeZone"
    lineHeight
    modules := usedModules directives }

end DocumentSettings

end DocModel
