import Scriptlet.CommandLine

/-!
# The program

Reads what the command line asks for and writes the output of the run. On a
terminal and without a file it reads and answers lines one by one.
-/

namespace Scriptlet.Terminal

open CommandLine

/-- The rounds that a conditional loop may take. -/
def fuel : Nat := 4611686018427387904

/-- What reading a file gives. -/
def reading (name : String) : IO Reading := do
  try
    let content ← IO.FS.readFile name
    return .content content
  catch
    | .inappropriateType .. => return .directory
    | .illegalOperation .. => return .directory
    | .invalidArgument .. => return .invalidName
    | _ => return .missing

/-- Writes an output to the two standard streams. -/
def write (output : Output) : IO Unit := do
  (← IO.getStdout).write output.stdout.bytes.toByteArray
  (← IO.getStdout).flush
  (← IO.getStderr).putStr output.stderr

/-- Answers the lines of a terminal until they end. -/
partial def converse (o : Options) (color : Bool) (s : Session) : IO Session := do
  write ⟨"> ", "", 0⟩
  let line ← (← IO.getStdin).getLine
  if line.isEmpty then return s
  let (output, after) := answer o color fuel line s
  write output
  converse o color after

/-- A conversation with a prepared session. -/
def interact (o : Options) (color : Bool) (files : Files) : IO UInt32 := do
  match (prepare o files).run .empty with
  | .error failure _ =>
      write ⟨"", failure.message ++ "\n", 1⟩
      return 1
  | .ok _ s =>
      let left ← converse o color s
      if o.dump then write ⟨left.dump, "", 0⟩
      return 0

/-- A run on the given arguments, which reads the standard input if it has to. -/
def launch (args : List String) : IO UInt32 := do
  let stdin ← IO.getStdin
  let terminal ← (← IO.getStdout).isTty
  let names := fileNames args
  let readings ← names.mapM reading
  let files : Files := fun name => ((names.zip readings).lookup name).getD .missing
  let input ← match Options.unset.parse args with
    | .ok (o, []) =>
        if o.version then pure ""
        else if ← stdin.isTty then return ← interact o (terminal && !o.noColor) files
        else stdin.readToEnd
    | _ => pure ""
  let output := run terminal fuel files input args
  write output
  return output.exitCode.toUInt32

end Scriptlet.Terminal

/-- Runs the program with its arguments. -/
def main (args : List String) : IO UInt32 :=
  Scriptlet.Terminal.launch args
