import DocModel.Error
import DocModel.Text.Blank

/-!
Directives: comments of a template that start with `@`. A directive has a name and parameters; a
parameter is a quoted value, a named value, or a flag. `Directive.parse` reads the text of a comment
and `Directive.describe` writes a directive down again.
-/

namespace DocModel

/-- A parameter of a directive. A quoted value stands under its own text, a named value under its
name, and a flag has no value. -/
structure Param where
  name : String
  value : Option String
deriving DecidableEq

namespace Param

/-- A quoted value. -/
def positional (value : String) : Param := ⟨value, some value⟩

/-- A value with a name. -/
def named (name value : String) : Param := ⟨name, some value⟩

/-- A bare name. -/
def flag (name : String) : Param := ⟨name, none⟩

/-- Whether a parameter is a quoted value: its value is its name. -/
def isPositional (p : Param) : Bool := p.value == some p.name

/-- The written form of a parameter. -/
def describe (p : Param) : String :=
  match p.value with
  | some value =>
    if p.isPositional then "\"" ++ value ++ "\"" else p.name ++ "=\"" ++ value ++ "\""
  | none => p.name

end Param

/-- A directive. -/
structure Directive where
  name : String
  params : List Param
deriving DecidableEq

namespace Directive

/-- The value of the first parameter, when that is a quoted value. -/
def firstPositional? (d : Directive) : Option String :=
  match d.params with
  | p :: _ => if p.isPositional then p.value else none
  | [] => none

/-- All quoted values. -/
def positionals (d : Directive) : List String :=
  (d.params.filter Param.isPositional).filterMap Param.value

/-- The value under a name behind the first parameter. An empty value counts as none. -/
def named? (d : Directive) (key : String) : Option String :=
  ((d.params.tail.find? (·.name == key)).bind Param.value).filter (· ≠ "")

/-- Whether a name occurs behind the first parameter, with a value or without. -/
def flag (d : Directive) (key : String) : Bool :=
  d.params.tail.any (·.name == key)

/-- The written form of a directive. -/
def describe (d : Directive) : String :=
  "@" ++ d.name ++ " " ++ " ".intercalate (d.params.map Param.describe)

end Directive

end DocModel
