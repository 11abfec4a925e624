import DocModel.DocumentError
import DocModel.Toml.Reading

/-!
The configuration of documents. It is written in TOML; keys that are left out have defaults, and
unknown keys do not count.
-/

namespace DocModel

/-- How documents are analysed. -/
structure DocumentConfig where
  /-- The depth bound for the trie, the model and the validation. -/
  maxDepth : Nat
  /-- Whether a malformed directive is a failure. -/
  strictDirectives : Bool
  /-- The modules that every template uses. -/
  defaultModules : List String
  /-- Whether a heading gives the title when no directive does. -/
  titleFromHeading : Bool
deriving DecidableEq

namespace DocumentConfig

/-- The configuration when nothing is written. -/
def default : DocumentConfig := ⟨10, true, [], true⟩

/-- The least depth bound that may be configured. -/
def leastDepth : Nat := 1

/-- The greatest depth bound that may be configured. -/
def greatestDepth : Nat := 64

def natOf? : Toml → Option Nat
  | .int n => if 0 ≤ n ∧ n ≤ Numeral.maxUnsigned then some n.toNat else none
  | _ => none

def boolOf? : Toml → Option Bool
  | .bool b => some b
  | _ => none

def stringOf? : Toml → Option String
  | .str s => some s
  | _ => none

def stringsOf? : Toml → Option (List String)
  | .arr items => items.mapM stringOf?
  | _ => none

/-- The value of a key, or its default when it is left out. A value of another type is a failure. -/
def valueAt {α : Type} (entries : Entries Toml) (key : String) (ofToml? : Toml → Option α)
    (default : α) : Except DocumentError α :=
  match entries.get? key with
  | none => .ok default
  | some written =>
    match ofToml? written with
    | some a => .ok a
    | none => .error .configParse

/-- The configuration that a table holds. -/
def ofTable (entries : Entries Toml) : Except DocumentError DocumentConfig := do
  let maxDepth ← valueAt entries "max-depth" natOf? default.maxDepth
  let strictDirectives ← valueAt entries "strict-directives" boolOf? default.strictDirectives
  let defaultModules ← valueAt entries "default-modules" stringsOf? default.defaultModules
  let titleFromHeading ← valueAt entries "title-from-heading" boolOf? default.titleFromHeading
  return { maxDepth, strictDirectives, defaultModules, titleFromHeading }

/-- Checks that the depth bound is in its range. -/
def checked (config : DocumentConfig) : Except DocumentError DocumentConfig :=
  if leastDepth ≤ config.maxDepth ∧ config.maxDepth ≤ greatestDepth then .ok config
  else .error (.configInvalid ["max_depth: range"])

/-- Reads a configuration. -/
def ofText (text : String) : Except DocumentError DocumentConfig :=
  match Toml.ofText? text with
  | none => .error .configParse
  | some entries => do
    let config ← ofTable entries
    config.checked

end DocumentConfig

end DocModel
