import DocModel.Template.Definitions
import DocModel.Template.Meaning
import DocModel.Text.Cluster

/-!
Rendering a template. Nodes are rendered from first to last; each one yields text and may change the
frames. Routines, blocks and the template itself can be rendered from inside of each other, up to a
bound for their nesting.
-/

namespace DocModel.Template

mutual

/-- The text of a value in the output. -/
def textOfValue : Json → String
  | .null => ""
  | .bool true => "true"
  | .bool false => "false"
  | .int n => toString n
  | .real x => x.plainText
  | .str s => s
  | .arr items => "[" ++ ", ".intercalate (textsOfValues items) ++ "]"
  | .obj _ => "[object]"

def textsOfValues : List Json → List String
  | [] => []
  | value :: rest => textOfValue value :: textsOfValues rest

end

/-- The kinds of containers that a loop can go over. -/
def isContainer : Operand → Bool
  | .name _ | .call _ | .array _ => true
  | _ => false

/-- The passes over a container: over the items of an array, the clusters of a text, or the entries
of an object. An object needs a name for its keys, and anything else must not have one. -/
def passesOver (keyName : Option String) (container : Json) : Except Fault (List Pass) :=
  match container, keyName with
  | .arr items, none => .ok (items.map (⟨"", ·⟩))
  | .str s, none =>
    .ok ((Text.clusters s.toList).map fun cluster => ⟨"", .str (String.ofList cluster)⟩)
  | .obj entries, some _ => .ok (entries.map fun (key, value) => ⟨key, value⟩)
  | _, _ => .error (.wrongKind "for")

/-- The surroundings of nodes: what expressions depend on, and what else the nodes can render. -/
structure Surroundings extends Env where
  /-- The blocks of the template by name. -/
  block? : String → Option (Eval String)
  /-- The template itself, inside of itself. -/
  template : Eval String

/-- The text of a filter section, after its filter. The filter `safe` only marks. -/
def filterSection (filter : CallMeaning) (body : String) (env : Env) : Eval String := do
  if filter.name = safeFilter then return body
  let result ← filter.applyFilter env ⟨.str body, false⟩
  return textOfValue result.value

/-- One rendering after the other, unless the first one leaves or skips the pass around it. -/
def andThen (first second : Eval String) : Eval String := do
  let text ← first
  if (← get).flow = .next then
    let more ← second
    return text ++ more
  else return text

/-- The passes of a loop that is open, until one of them leaves it. -/
def renderPasses (body : Eval String) : List Pass → Eval String
  | [] => return ""
  | _ :: later => do
    let text ← body
    if (← get).flow = .leave then return text
    Eval.change "for" Frames.advance?
    let more ← renderPasses body later
    return text ++ more

mutual

/-- Renders a node. -/
def Node.render (s : Surroundings) : Node → Eval String
  | .text text => return text
  | .comment .. | .extend .. | .importRoutines .. | .routine .. => return ""
  | .raw _ text _ => return text
  | .output _ e => do
    let value ← e.meaning.value s.toEnv
    return textOfValue value
  | .assign _ name isGlobal e => do
    let value ← e.meaning.value s.plain
    modify (if isGlobal then Frames.assignGlobally name value else Frames.assign name value)
    return ""
  | .filtered _ filter body _ => do
    let inside ← renderAll s body
    filterSection filter.meaning inside s.toEnv
  | .block _ name body _ => (s.block? name).getD (renderAll s body)
  | .loop _ keyName valueName container body otherwise _ => do
    if !isContainer container.operand then throw (.wrongKind "for")
    let value ← container.meaning.value s.plain
    match ← passesOver keyName value, otherwise with
    | [], some nodes => renderAll s nodes
    | [], none => return ""
    | passes, _ =>
      Eval.inFrame ⟨.loop (.start keyName valueName passes), []⟩
        (renderPasses (renderAll s body) passes)
  | .choice branches otherwise _ =>
    renderBranches s branches
      (match otherwise with
      | some (.mk _ nodes) => renderAll s nodes
      | none => return "")
  | .parentBlock => throw (.misplaced "super")
  | .include _ names mayBeMissing => do
    if names.contains RenderError.templateName then Eval.inFrame ⟨.inclusion, []⟩ s.template
    else if mayBeMissing then return ""
    else throw (.unknownTemplate names)
  | .leave _ => do
    Eval.change "break" (Frames.changeLoop? fun loop => { loop with flow := .leave })
    return ""
  | .skip _ => do
    Eval.change "continue" (Frames.changeLoop? fun loop => { loop with flow := .skip })
    return ""

/-- Renders the nodes of a body from first to last. -/
def renderAll (s : Surroundings) : List Node → Eval String
  | [] => return ""
  | node :: rest => andThen (node.render s) (renderAll s rest)

/-- Renders the first branch whose condition holds, or else `otherwise`. -/
def renderBranches (s : Surroundings) : List Branch → Eval String → Eval String
  | [], otherwise => otherwise
  | .mk _ condition body :: rest, otherwise => do
    let holds ← condition.meaning.truth s.toEnv
    if holds then renderAll s body else renderBranches s rest otherwise

end

/-- The values of the parameters of a routine. A parameter without a value needs a default. -/
def bindParams (env : Env) (argument : String → Option (Eval Json)) :
    List (String × Option Expr) → Eval (Entries Json)
  | [] => return []
  | (name, default) :: rest => do
    let value ← match argument name, default with
      | some given, _ => given
      | none, some e => e.meaning.value env.plain
      | none, none => throw (.missingArgument name)
    let more ← bindParams env argument rest
    return (name, value) :: more

/-- The surroundings of the nodes of a template, in which routines, blocks and the template itself
may be nested less than `depth` deep. -/
def surroundings (engine : Engine) (nodes : List Node) (depth : Nat) (escaping : Bool) :
    Surroundings :=
  match depth with
  | 0 =>
    { engine, escaping
      callRoutine _ _ _ := throw .tooDeep
      block? _ := some (throw .tooDeep)
      template := throw .tooDeep }
  | depth + 1 =>
    { engine, escaping
      callRoutine name argument escaping := do
        let some routine := (routines nodes).find? (·.name == name)
          | throw (.unknownRoutine name)
        let s := surroundings engine nodes depth escaping
        let locals ← bindParams s.toEnv argument routine.params
        Eval.inFrame ⟨.routine OperandMeaning.ownSpace name, locals⟩ (renderAll s routine.body)
      block? name := ((blocks nodes).find? (·.1 == name)).map fun block =>
        renderAll (surroundings engine nodes depth escaping) block.2
      template := renderAll (surroundings engine nodes depth escaping) nodes }

/-- The deepest nesting of routines, blocks and the template itself. -/
def maxNesting : Nat := 1000

/-- Renders the nodes of a whole template. At its outermost level no pass can be left. -/
def renderTemplate (engine : Engine) (escaping : Bool) (nodes : List Node) : Eval String := do
  let texts ← nodes.mapM (Node.render (surroundings engine nodes maxNesting escaping))
  return String.join texts

/-- The output of a template for some data, which have to be an object. -/
def render (engine : Engine) (escaping : Bool) (nodes : List Node) (data : Json) :
    Except RenderError String :=
  match data with
  | .obj entries =>
    let (result, frames) := (renderTemplate engine escaping nodes).onData entries
    result.mapError (⟨·, frames.routine?⟩)
  | _ => .error ⟨.notAnObject, none⟩

end DocModel.Template
