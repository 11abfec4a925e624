import DocModel.Template.Reference

/-!
What names stand for while a template is rendered. Every loop that is run, every routine that is
called and every template that is included opens a frame with assignments of its own. A name is
looked up from the innermost frame outwards, up to the first routine, and then in the data.
-/

namespace DocModel.Template

/-- How a loop goes on behind a node of its body. -/
inductive Flow where
  | next
  | leave
  | skip
deriving DecidableEq

/-- What one pass of a loop binds: a value, and its key when the loop goes over an object. -/
structure Pass where
  key : String
  value : Json

/-- A loop that is being run. -/
structure Loop where
  /-- The name of the keys, for a loop over an object. -/
  keyName : Option String
  valueName : String
  /-- The number of passes before the present one. -/
  index : Nat
  /-- The present pass and those to come. -/
  passes : List Pass
  flow : Flow

namespace Loop

/-- The loop before its first pass is done. -/
def start (keyName : Option String) (valueName : String) (passes : List Pass) : Loop :=
  ⟨keyName, valueName, 0, passes, .next⟩

/-- The loop in its next pass. -/
def advance (loop : Loop) : Loop :=
  { loop with index := loop.index + 1, passes := loop.passes.tail, flow := .next }

/-- The name of what a loop says about itself. -/
def ownName : String := "loop"

/-- What a loop says about itself. -/
def about? (loop : Loop) (field : String) : Option Json :=
  match field with
  | "index" => some (.int (loop.index + 1))
  | "index0" => some (.int loop.index)
  | "first" => some (.bool (loop.index == 0))
  | "last" => some (.bool (loop.passes.length == 1))
  | _ => none

/-- The value of a pointer that a loop binds. The name of the keys comes before what the loop says
about itself, and that before the name of the values. -/
def find? (loop : Loop) (pointer : List Char) : Option Json := do
  let (head, tail) := Pointer.splitHead pointer
  if loop.keyName = some (String.ofList pointer) then
    let pass ← loop.passes.head?
    return .str pass.key
  else if head = ownName then loop.about? (String.ofList (tail.getD []))
  else if head = loop.valueName ∧ tail ≠ some [] then
    let pass ← loop.passes.head?
    follow? pass.value (tail.getD [])
  else none

/-- The names that a loop binds in its present pass. -/
def bindings (loop : Loop) : List (String × Json) :=
  match loop.passes with
  | [] => []
  | pass :: _ =>
    (loop.valueName, pass.value) :: (loop.keyName.map fun name => (name, .str pass.key)).toList

end Loop

/-- What a frame belongs to. -/
inductive Opener where
  /-- The template itself. -/
  | template
  /-- A template that is included. -/
  | inclusion
  /-- A routine, with the place where it was found. -/
  | routine (space name : String)
  | loop (loop : Loop)

/-- A frame: what it belongs to, and what has been assigned in it. -/
structure Frame where
  opener : Opener
  locals : Entries Json

namespace Frame

/-- The loop that a frame belongs to. -/
def loop? (frame : Frame) : Option Loop :=
  match frame.opener with
  | .loop loop => some loop
  | _ => none

/-- Whether a frame belongs to a routine. -/
def isRoutine (frame : Frame) : Bool :=
  match frame.opener with
  | .routine .. => true
  | _ => false

/-- The value of a pointer that has been assigned in a frame. -/
def findLocal? (frame : Frame) (pointer : List Char) : Option Json := do
  let (head, tail) := Pointer.splitHead pointer
  let value ← frame.locals.get? head
  follow? value (tail.getD [])

/-- The value of a pointer in a frame. Assignments come before what a loop binds. -/
def find? (frame : Frame) (pointer : List Char) : Option Json :=
  frame.findLocal? pointer <|> frame.loop?.bind (·.find? pointer)

/-- The names of a frame. Of two entries with one name the later one counts. -/
def bindings (frame : Frame) : List (String × Json) :=
  frame.locals ++ (frame.loop?.map Loop.bindings).getD []

end Frame

/-- The value of a pointer in the data. -/
def findInData (data : Entries Json) (pointer : List Char) : Option Json :=
  match Pointer.splitHead pointer with
  | (head, none) => data.get? head
  | (head, some _) => do
    let root := Pointer.plainKey head.toList
    let value ← data.get? root
    follow? value (pointer.drop (root.length + 1))

/-- The open frames from the innermost one outwards, and the data behind them. -/
structure Frames where
  top : Frame
  outer : List Frame
  data : Entries Json

namespace Frames

/-- The frame of the template alone. -/
def ofData (data : Entries Json) : Frames := ⟨⟨.template, []⟩, [], data⟩

/-- All frames from the innermost one outwards. -/
def toList (frames : Frames) : List Frame := frames.top :: frames.outer

/-- Opens a frame. -/
def push (frame : Frame) (frames : Frames) : Frames :=
  { frames with top := frame, outer := frames.top :: frames.outer }

/-- Closes the innermost frame. The outermost one stays. -/
def pop (frames : Frames) : Frames :=
  match frames.outer with
  | [] => frames
  | top :: outer => { frames with top, outer }

/-- The frames that a name is looked up in: up to the first one of a routine. -/
def inSight : List Frame → List Frame
  | [] => []
  | frame :: outer => if frame.isRoutine then [frame] else frame :: inSight outer

/-- The value of a pointer. The data are seen from everywhere. -/
def find? (frames : Frames) (pointer : List Char) : Option Json :=
  (inSight frames.toList).findSome? (·.find? pointer) <|> findInData frames.data pointer

/-- The value of a reference. -/
def valueOf? (frames : Frames) (reference : String) : Option Json := do
  let pointer ← Reference.pointer? frames.find? reference
  frames.find? pointer

/-- Assigns a name in the innermost frame. -/
def assign (name : String) (value : Json) (frames : Frames) : Frames :=
  { frames with top := { frames.top with locals := frames.top.locals.insert name value } }

/-- Assigns a name in the first of some frames that belongs to no loop. -/
def assignBeyondLoops (name : String) (value : Json) : List Frame → List Frame
  | [] => []
  | frame :: outer =>
    if frame.loop?.isSome then frame :: assignBeyondLoops name value outer
    else { frame with locals := frame.locals.insert name value } :: outer

/-- Assigns a name beyond the loops that are open. -/
def assignGlobally (name : String) (value : Json) (frames : Frames) : Frames :=
  if frames.top.loop?.isSome then
    { frames with outer := assignBeyondLoops name value frames.outer }
  else frames.assign name value

/-- Changes the innermost loop, when it belongs to the innermost frame. Its assignments stay. -/
def changeLoop? (change : Loop → Loop) (frames : Frames) : Option Frames :=
  frames.top.loop?.map fun loop =>
    { frames with top := { frames.top with opener := .loop (change loop) } }

/-- Goes on to the next pass of the innermost loop, in which nothing has been assigned. -/
def advance? (frames : Frames) : Option Frames :=
  frames.top.loop?.map fun loop => { frames with top := ⟨.loop loop.advance, []⟩ }

/-- How the innermost loop goes on, when it belongs to the innermost frame. -/
def flow (frames : Frames) : Flow :=
  (frames.top.loop?.map Loop.flow).getD .next

/-- All names in sight with their values. The names of outer frames take the place of those of inner
ones; a routine does not show the data. -/
def context (frames : Frames) : Entries Json :=
  let seen := inSight frames.toList
  let shown := Entries.ofList (seen.flatMap Frame.bindings)
  if seen.any Frame.isRoutine then shown else frames.data.overlay shown

/-- The routine that the innermost frame belongs to. -/
def routine? (frames : Frames) : Option (String × String) :=
  match frames.top.opener with
  | .routine space name => some (space, name)
  | _ => none

theorem pop_push (frame : Frame) (frames : Frames) : (frames.push frame).pop = frames := rfl

end Frames

end DocModel.Template
