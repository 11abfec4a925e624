import DocModel.Config
import DocModel.FieldList
import DocModel.Heading
import DocModel.HelperModule.Registry
import DocModel.Metadata
import DocModel.Settings
import DocModel.Template.Reading
import DocModel.Template.Rendering
import DocModel.Template.Walk
import DocModel.Validation

/-!
Documents: a template with the data model that follows from it, and data for it. What follows from a
template is replaced as a whole, so that an operation that fails leaves the document as it was.
-/

namespace DocModel

/-- Everything that follows from the nodes of a template. -/
structure Analysis where
  directives : List Directive
  paths : List String
  trie : PathTrie
  fields : List Field
  options : List FieldOption
  settings : DocumentSettings
  /-- The modules in use, those of the configuration first. -/
  modules : List String
  /-- The names of their helpers, each once. -/
  helperNames : List String
  model : List MetadataNode

namespace Analysis

/-- The settings with the title of the first heading, when they have none and headings count. -/
def titled (config : DocumentConfig) (texts : List String) (settings : DocumentSettings) :
    DocumentSettings :=
  match settings.title with
  | some _ => settings
  | none =>
    if config.titleFromHeading then { settings with title := Heading.title? texts } else settings

/-- Analyses the nodes of a template. -/
def ofNodes (config : DocumentConfig) (registry : Registry) (nodes : List Template.Node) :
    Except DocumentError Analysis := do
  let directives ← (Template.directives nodes config.strictDirectives).mapError .model
  let paths := Template.paths nodes
  let trie ← (PathTrie.ofPaths paths config.maxDepth).mapError .model
  let (fields, options) ← (Field.compileAll directives).mapError .model
  let settings ← DocumentSettings.ofDirectives directives
  let modules := (config.defaultModules ++ settings.modules).eraseDups
  let helperNames ← registry.helperNames modules
  let model ← (MetadataNode.model trie fields helperNames config.maxDepth).mapError .model
  return {
    directives, paths, trie, fields, options
    settings := titled config (Template.texts nodes) settings
    modules, helperNames, model }

/-- The analysis with one more module in use. -/
def useModule (analysis : Analysis) (config : DocumentConfig) (m : HelperModule) :
    Except DocumentError Analysis := do
  let helperNames := (analysis.helperNames ++ m.helpers).eraseDups
  let model ←
    (MetadataNode.model analysis.trie analysis.fields helperNames config.maxDepth).mapError .model
  return { analysis with helperNames, model, modules := analysis.modules ++ [m.name] }

end Analysis

/-- A template with its data model and its data. -/
structure Document where
  config : DocumentConfig
  registry : Registry
  analysis : Analysis
  /-- The nodes that are rendered, with the filters and functions for them. -/
  nodes : List Template.Node
  engine : Engine
  data : Json

namespace Document

/-- What a template is read as: its analysis, and what is rendered. -/
def load (config : DocumentConfig) (registry : Registry) (source : String) :
    Except DocumentError (Analysis × List Template.Node × Engine) := do
  let nodes ← (Template.parse source).mapError .model
  let analysis ← Analysis.ofNodes config registry (Template.analysed nodes)
  let engine ← registry.engine analysis.modules
  return (analysis, Template.printed nodes, engine)

/-- A document from a template, with no data. -/
def ofSource (config : DocumentConfig) (registry : Registry) (source : String) :
    Except DocumentError Document := do
  let (analysis, nodes, engine) ← load config registry source
  return { config, registry, analysis, nodes, engine, data := .obj [] }

/-- Replaces the template. The data stay. -/
def setTemplate (doc : Document) (source : String) : Except DocumentError Document := do
  let (analysis, nodes, engine) ← load doc.config doc.registry source
  return { doc with analysis, nodes, engine }

/-- Uses one more module; using it again changes nothing. -/
def useModule (doc : Document) (name : String) : Except DocumentError Document := do
  let m ← doc.registry.resolve name
  if doc.analysis.modules.contains name then return doc
  let analysis ← doc.analysis.useModule doc.config m
  return { doc with analysis, engine := m.addTo doc.engine }

/-- Replaces the data. -/
def setData (doc : Document) (data : Json) : Document := { doc with data }

/-- The faults of some data. -/
def validate (doc : Document) (data : Json) : Except DocumentError (List ValidationError) :=
  (DocModel.validate data doc.analysis.model doc.config.maxDepth).mapError .model

/-- Some data with the entries of other data put over them; if one of the two is no object, the
other data alone. -/
def overlay (base other : Json) : Json :=
  match base, other with
  | .obj base, .obj other => .obj (Entries.overlay base other)
  | _, _ => other

/-- The faults of the data with other data put over them. -/
def validateWith (doc : Document) (other : Json) : Except DocumentError (List ValidationError) :=
  doc.validate (overlay doc.data other)

def isValid (doc : Document) : Except DocumentError Bool :=
  return (← doc.validate doc.data).isEmpty

def isValidWith (doc : Document) (other : Json) : Except DocumentError Bool :=
  return (← doc.validateWith other).isEmpty

/-- The output for some data. -/
def render (doc : Document) (data : Json) : Except DocumentError String :=
  (Template.render doc.engine true doc.nodes data).mapError .render

/-- The output for the data of the document. -/
def html (doc : Document) : Except DocumentError String :=
  doc.render doc.data

end Document

end DocModel
