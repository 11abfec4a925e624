import DocModel.Template.ExprReading

/-!
Reading the nodes of a template: literal text, outputs, comments, and tags with their bodies. Which
tags may stand in a body depends on the tag that the body belongs to; see `Place`.
-/

namespace DocModel.Template

open Scanner

variable {α : Type}

/-- What may stand in a body, apart from the nodes that may stand everywhere. -/
structure Place where
  routines : Bool
  blocks : Bool
  parentBlock : Bool
  leaving : Bool

namespace Place

/-- The outermost node list. -/
def top : Place := ⟨true, true, false, false⟩

/-- The body of a block. -/
def block : Place := ⟨false, true, true, false⟩

/-- The body of a loop. -/
def loop : Place := ⟨false, false, false, true⟩

/-- The body of a routine. -/
def routine : Place := ⟨false, false, false, false⟩

/-- The body of a filter section. -/
def filtered : Place := ⟨false, true, false, false⟩

/-- The bodies of a choice: what may stand around it, except for routines. -/
def choice (around : Place) : Place := { around with routines := false }

end Place

/-- Reads when it is allowed. -/
def allowed (condition : Bool) (p : Scanner α) : Scanner α :=
  fun s => if condition then p s else none

/-- The first position at which a scanner succeeds: the text before it, and its value. -/
def upToFirst (p : Scanner α) : List Char → Option ((List Char × α) × List Char)
  | [] => (p []).map fun (a, rest) => (([], a), rest)
  | c :: cs =>
    match p (c :: cs) with
    | some (a, rest) => some (([], a), rest)
    | none => (upToFirst p cs).map fun ((before, a), rest) => ((c :: before, a), rest)

/-- The opening mark of a tag, and whether it has a dash. -/
def opening (mark : String) : Scanner Bool := do
  word mark
  let dash ← maybe (word "-")
  return dash.isSome

/-- The closing mark of a tag, and whether it has a dash. -/
def closing (mark : String) : Scanner Bool :=
  (do word ("-" ++ mark); return true) <|> do word mark; return false

/-- What stands between an opening and a closing mark. -/
def between (left right : String) (inside : Scanner α) : Scanner (Edges × α) := do
  let before ← opening left
  let a ← spaced inside
  let behind ← spaced (closing right)
  return (⟨before, behind⟩, a)

/-- A tag with a keyword and what follows it behind a blank. -/
def tag (keyword : String) (inside : Scanner α) : Scanner (Edges × α) :=
  between "\x7b%" "%\x7d" (do word keyword; gap1; inside)

/-- A tag with a keyword alone. -/
def bareTag (keyword : String) : Scanner Edges := do
  let (edges, _) ← between "\x7b%" "%\x7d" (word keyword)
  return edges

/-- A closing tag, which may repeat a name. The name does not have to be the right one. -/
def namedClosingTag (keyword : String) : Scanner Edges := do
  let (edges, _) ← between "\x7b%" "%\x7d" (do word keyword; maybe ident)
  return edges

/-- Whether a tag, an output or a comment starts here. -/
def startsMark : List Char → Bool
  | '\x7b' :: c :: _ => c = '%' || c = '\x7b' || c = '#'
  | _ => false

/-- The text up to the next mark. -/
def textUpToMark : List Char → List Char × List Char
  | [] => ([], [])
  | c :: rest =>
    if startsMark (c :: rest) then ([], c :: rest)
    else
      let (text, behind) := textUpToMark rest
      (c :: text, behind)

/-- Literal text. -/
def textNode : Scanner Node := fun s =>
  match textUpToMark s with
  | ([], _) => none
  | (text, rest) => some (.text (String.ofList text), rest)

/-- A comment, which holds at least one character. -/
def commentNode : Scanner Node := do
  let before ← opening "\x7b#"
  let (text, behind) ← upToFirst (closing "#\x7d")
  if text.isEmpty then failure
  return .comment ⟨before, behind⟩ (String.ofList text)

/-- Text that is not looked at. -/
def rawNode : Scanner Node := do
  let first ← bareTag "raw"
  let (text, last) ← upToFirst (bareTag "endraw")
  return .raw first (String.ofList text) last

/-- The call that puts in the block of the parent. -/
def parentBlockNode : Scanner Node := do
  let _ ← between "\x7b\x7b" "\x7d\x7d" (word "super()")
  return .parentBlock

/-- The name or names behind `include`, and whether they may be missing. -/
def includeNode : Scanner Node := do
  let (edges, names, missing) ← tag "include" (do
    let names ← (do let name ← text; return [name]) <|> do
      symbol "["
      let names ← maybe (trailingList text)
      symbol "]"
      return names.getD []
    let missing ← maybe (do symbol "ignore"; symbol "missing")
    return (names, missing.isSome))
  return .include edges names missing

/-- Reads where no blank stands. -/
def unspaced (p : Scanner α) : Scanner α := fun s =>
  if s.head?.any isGap then none else p s

/-- A parameter of a routine, which may have a literal as its default. There are no blanks around
the sign between the two. -/
def param : Scanner (String × Option Expr) := do
  let name ← ident
  let default ← maybe (do
    word "="
    unspaced (.bool <$> truth <|> .text <$> text <|> .real <$> real <|> .int <$> int))
  return (name, default.map Operand.toExpr)

/-- The parameters of a routine between parentheses. -/
def params : Scanner (List (String × Option Expr)) := do
  symbol "("
  let params ← maybe (commaList param)
  symbol ")"
  return Entries.ofList (params.getD [])

section

variable (depth : Nat) (body : Place → Scanner (List Node))

/-- Reads an expression, or an array with filters. -/
def fullExpr : Scanner Expr := argument (Part.read depth)

/-- The output of an expression. -/
def outputNode : Scanner Node := do
  let (edges, e) ← between "\x7b\x7b" "\x7d\x7d" (fullExpr depth)
  return .output edges e

/-- An assignment in the innermost scope or beyond loops. -/
def assignNode (keyword : String) (isGlobal : Bool) : Scanner Node := do
  let (edges, name, e) ← tag keyword (do
    let name ← ident
    symbol "="
    let e ← fullExpr depth
    return (name, e))
  return .assign edges name isGlobal e

/-- A filter section. -/
def filteredNode : Scanner Node := do
  let (first, filter) ← tag "filter" (callOrName (Part.read depth))
  let nodes ← body .filtered
  let last ← bareTag "endfilter"
  return .filtered first filter nodes last

/-- A block. -/
def blockNode : Scanner Node := do
  let (first, name) ← tag "block" ident
  let nodes ← body .block
  let last ← namedClosingTag "endblock"
  return .block first name nodes last

/-- The names, and the container, of a loop. -/
def loopHead : Scanner (Option String × String × Expr) := do
  let first ← ident
  let second ← maybe (do word ","; ident)
  gap1
  word "in"
  gap1
  let container ← filteredSum (Part.read depth) depth <|> Part.read depth .array
  return match second with
    | some second => (some first, second, container)
    | none => (none, first, container)

/-- A loop. Of several bodies for an empty container the last one counts. -/
def loopNode : Scanner Node := do
  let (first, key, value, container) ← tag "for" (loopHead depth)
  let nodes ← body .loop
  let otherwise ← many (do let _ ← bareTag "else"; body .loop)
  let last ← bareTag "endfor"
  return .loop first key value container nodes otherwise.getLast? last

/-- A branch of a choice. -/
def branch (keyword : String) (place : Place) : Scanner Branch := do
  let (edges, condition) ← tag keyword (Part.read depth .logic)
  let nodes ← body place
  return .mk edges condition nodes

/-- A choice. -/
def choiceNode (around : Place) : Scanner Node := do
  let first ← branch depth body "if" around.choice
  let more ← many (branch depth body "elif" around.choice)
  let otherwise ← maybe (do
    let edges ← bareTag "else"
    let nodes ← body around.choice
    return Fallback.mk edges nodes)
  let last ← bareTag "endif"
  return .choice (first :: more) otherwise last

/-- The definition of a routine. -/
def routineNode : Scanner Node := do
  let (first, name, params) ← tag "macro" (do
    let name ← ident
    let params ← params
    return (name, params))
  let nodes ← body .routine
  let last ← namedClosingTag "endmacro"
  return .routine first name params nodes last

/-- A node at a place, with its bodies. -/
def nodeAt (place : Place) : Scanner Node :=
  textNode <|> allowed place.parentBlock parentBlockNode <|> outputNode depth <|> commentNode <|>
    includeNode <|> assignNode depth "set" false <|> assignNode depth "set_global" true <|>
    allowed place.routines (routineNode body) <|> allowed place.blocks (blockNode body) <|>
    loopNode depth body <|> filteredNode depth body <|> rawNode <|>
    choiceNode depth body place <|>
    allowed place.leaving (.leave <$> bareTag "break" <|> .skip <$> bareTag "continue")

end

/-- A node in which other nodes are nested less than `nesting` deep, with expressions in which
others are nested less than `depth` deep. -/
def Node.read (depth : Nat) : Nat → Place → Scanner Node
  | 0, _ => fun _ => none
  | nesting + 1, place => fun s =>
    nodeAt depth (fun inside => many (read depth nesting inside)) place s

end DocModel.Template
