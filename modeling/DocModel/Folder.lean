import DocModel.Document

/-!
Folders that hold a template and perhaps a configuration for it, as files of bytes.
-/

namespace DocModel

/-- The two files of a folder, as far as they are there. -/
structure Folder where
  template : Option (List UInt8)
  config : Option (List UInt8)

namespace Folder

def templateName : String := "template.html.tera"

def configName : String := "quire.toml"

/-- The text of a file, which has to be there and to be encoded in UTF-8. -/
def textOf (name : String) (file : Option (List UInt8)) : Except DocumentError String :=
  match file with
  | none => .error (.file name .notFound)
  | some bytes =>
    match String.fromUTF8? (ByteArray.mk bytes.toArray) with
    | some text => .ok text
    | none => .error (.file name .invalidData)

def templateText (folder : Folder) : Except DocumentError String :=
  textOf templateName folder.template

/-- The configuration, which has to be there. -/
def readConfig (folder : Folder) : Except DocumentError DocumentConfig := do
  let text ← textOf configName folder.config
  DocumentConfig.ofText text

/-- The configuration, or the default one when there is none. -/
def readConfigOrDefault (folder : Folder) : Except DocumentError DocumentConfig :=
  match folder.config with
  | none => .ok .default
  | some _ => folder.readConfig

/-- The document of the template alone. -/
def loadTemplate (folder : Folder) : Except DocumentError Document := do
  let source ← folder.templateText
  Document.ofSource .default .builtin source

/-- The document of the template with the configuration. -/
def load (folder : Folder) : Except DocumentError Document := do
  let config ← folder.readConfigOrDefault
  let source ← folder.templateText
  Document.ofSource config .builtin source

end Folder

end DocModel
