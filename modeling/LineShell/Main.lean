import LineShell.CommandLine
import LineShell.Machine

/-!
The shell on the small machine, with its lines from standard input.
-/
namespace LineShell.Main

partial def readAll (stream : IO.FS.Stream) (before : ByteArray) : IO ByteArray := do
  let more ← stream.read 4096
  if more.isEmpty then return before else readAll stream (before ++ more)

def inherited : IO (List (String × String)) :=
  Machine.drawingVariables.filterMapM fun name => do
    return (← IO.getEnv name).map ((name, ·))

def deliver (arrived : Outlet × Bytes) : IO Unit := do
  let stream ← match arrived.1 with
    | .output => IO.getStdout
    | .diagnostics => IO.getStderr
  stream.write ⟨arrived.2.toArray⟩

end LineShell.Main

open LineShell

/-- Runs the shell on the whole input, shows what arrived on each stream, and exits. -/
def main (arguments : List String) : IO UInt32 := do
  let input ← Main.readAll (← IO.getStdin) .empty
  let w := Machine.world (← Main.inherited)
  let source := Source.deliver 0 input.data.toList []
  let act : Act Empty Nat :=
    CommandLine.run arguments (← (← IO.getStderr).isTty) source
  let step := act ⟨w, .accepting, .accepting⟩
  (arrivals (CommandLine.draw w.vars toString) untilFlush 0 [] step.events).forM Main.deliver
  match step.result with
  | .ok code => return UInt32.ofNat code
  | .error impossible => nomatch impossible
