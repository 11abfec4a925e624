import DocModel.Json.Indented
import DocModel.Template.Fault
import DocModel.Template.Frame

/-!
Evaluations: computations that look at the open frames, may change them, and may end with a fault. A
fault leaves the frames as they are at that moment, and so does going on behind it.
-/

namespace DocModel.Template

/-- A computation on the open frames that may end with a fault. -/
abbrev Eval := ExceptT Fault (StateM Frames)

namespace Eval

variable {α : Type}

/-- The result that an evaluation has with some data, and the frames that it leaves. -/
def onData (e : Eval α) (data : Entries Json) : Except Fault α × Frames :=
  e.run.run (Frames.ofData data)

/-- Changes the frames, which may be impossible behind some tag. -/
def change (tag : String) (change? : Frames → Option Frames) : Eval Unit := do
  match change? (← get) with
  | some frames => set frames
  | none => throw (.misplaced tag)

/-- Evaluates in a frame of its own. The frame stays open behind a fault. -/
def inFrame (frame : Frame) (e : Eval α) : Eval α := do
  modify (·.push frame)
  let a ← e
  modify (·.pop)
  return a

end Eval

/-- The name that stands for all names in sight. -/
def contextName : String := "__tera_context"

/-- The value of a reference, if it has one. All names in sight are shown as a text. -/
def lookUp (reference : String) : Eval (Option Json) := do
  let frames ← get
  if reference = contextName then return some (.str (Json.obj frames.context).writeIndented)
  else return frames.valueOf? reference

end DocModel.Template
