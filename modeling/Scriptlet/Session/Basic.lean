import Scriptlet.Environment

/-!
# Sessions

A session holds everything that running a program can change: the declared names
with their values, the statements loaded so far, the frames of the calls in
progress, and the text that was printed. An action on it, `Exec`, ends with a
result or a failure, and the session keeps what was done before a failure.

A slot of a parsed program stands for a cell of the session. `Session.cell`
reads it and `Session.setCell` writes it; parameters and the result are those of
the innermost call. A call in progress has a frame on the stack, which
`Exec.pushFrame` puts there, if there is room for it, and `Exec.popFrame` takes away.
-/

namespace Scriptlet

/-- The number of calls that may be in progress at once. -/
def maxFrames : Nat := 1024

/-- The state that programs run on. -/
structure Session where
  env : Environment
  /-- The statements loaded so far. -/
  program : List Stmt
  /-- The calls in progress, the innermost first. -/
  frames : List Frame
  /-- What was printed so far. -/
  printed : Octets
  /-- There are never more calls in progress than are allowed. -/
  frames_le : frames.length ≤ maxFrames

/-- An action on a session. -/
abbrev Exec := EStateM Failure Session

namespace Session

/-- A session in which nothing has happened. -/
def empty : Session := ⟨.empty, [], [], "", Nat.zero_le _⟩

/-- The value of the cell that a slot stands for. -/
def cell (s : Session) : Slot → Except Panic Value
  | .global i _ =>
      match s.env.global? i with
      | some v => .ok v
      | none => .error (.noGlobal i)
  | .last f _ =>
      match s.env.functions[f]? with
      | some g => .ok g.last
      | none => .error (.noFunction f)
  | .param i name =>
      match s.frames with
      | [] => .error (.noCall name)
      | frame :: _ =>
          match frame.params[i]? with
          | some v => .ok v
          | none => .error (.noParam frame.function i)
  | .result name =>
      match s.frames with
      | [] => .error (.noCall name)
      | frame :: _ => .ok frame.result

/-- The session with the function at an index changed. -/
def modifyFunction (s : Session) (i : Nat) (change : Function → Function) : Session :=
  { s with env := s.env.modifyFunction i change }

/-- The session with the innermost call changed. -/
def modifyFrame (s : Session) (change : Frame → Frame) : Session :=
  { s with
    frames := s.frames.modifyHead change
    frames_le := by rw [List.length_modifyHead]; exact s.frames_le }

/-- The session with one more call, for which there is room. -/
def enter (s : Session) (frame : Frame) (h : s.frames.length < maxFrames) : Session :=
  { s with frames := frame :: s.frames, frames_le := h }

/-- The session without the innermost call. -/
def leave (s : Session) : Session :=
  { s with
    frames := s.frames.tail
    frames_le := Nat.le_trans (by simp) s.frames_le }

/-- The session with the cell that a slot stands for changed. -/
def setCell (s : Session) (slot : Slot) (v : Value) : Session :=
  match slot with
  | .global i _ => { s with env := s.env.setGlobal i v }
  | .last f _ => s.modifyFunction f ({ · with last := v })
  | .param i _ => s.modifyFrame (·.setArg i v)
  | .result _ => s.modifyFrame (·.setResult v)

end Session

namespace Exec

/-- Fails with an error of the language. -/
def fail {α : Type} (e : Error) : Exec α :=
  throw (.error e)

/-- The outcome of a computation that needs no session. -/
def ofExcept {α : Type} : Except Error α → Exec α
  | .ok a => pure a
  | .error e => fail e

/-- The value of a slot in the session `s`. -/
def readIn (s : Session) (slot : Slot) : Exec Value :=
  match s.cell slot with
  | .ok v => pure v
  | .error p => throw (.panic p)

/-- The value of a slot. -/
def read (slot : Slot) : Exec Value := do
  readIn (← get) slot

/-- Changes the value of a slot. -/
def write (slot : Slot) (v : Value) : Exec Unit := do
  let _ ← read slot
  modify (·.setCell slot v)

/-- Begins a call. It fails when as many calls are in progress as are allowed. -/
def pushFrame (frame : Frame) (pos? : Option Position) : Exec Unit := do
  let s ← get
  if h : s.frames.length < maxFrames then set (s.enter frame h)
  else fail ⟨.callDepth frame.function, pos?⟩

/-- Ends the innermost call, and gives its frame. -/
def popFrame : Exec Frame := do
  match (← get).frames with
  | [] => throw (.panic .noFrame)
  | frame :: _ =>
      modify (·.leave)
      return frame

/-- Runs an action as a call with the given frame, and gives the frame as the call
left it. The call also ends when the action fails. -/
def withFrame (frame : Frame) (pos? : Option Position) (body : Exec Unit) : Exec Frame := do
  pushFrame frame pos?
  tryCatch body fun failure => do
    discard popFrame
    throw failure
  popFrame

end Exec

end Scriptlet
