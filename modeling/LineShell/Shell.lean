import LineShell.Colour
import LineShell.Dispatch
import LineShell.Options
import LineShell.Source

/-!
The loop: prompt, read a line, execute it. A command's failure is reported and forgotten; only
`exit`, the end of the input and failures of the loop's own reads and writes end it.
-/
namespace LineShell

structure Shell where
  prompt : String := Options.default.prompt
  highlighter : Highlighter := .plain
  deriving DecidableEq, Repr

namespace Shell

open Act (fail happen log write flush complain)

/-- Output goes first, and a diagnostic that cannot be shown is dropped. -/
def report {ε : Type} (shell : Shell) (command : String) (error : CommandError) :
    Act ε Unit := do
  let text := shell.highlighter.apply (command ++ ": " ++ error.message)
  let _ ← flush.attempt
  let _ ← Act.attempt do
    complain (Bytes.ofString text)
    complain [Bytes.newline]

def executeLine {ε : Type} (shell : Shell) (line : Bytes) : Act ε Status := do
  let list := tokenize line
  match ← (execute list).attempt with
  | .ok status => pure status
  | .error error =>
    shell.report (Utf8.lossy (list.command?.getD [])) error
    pure .proceed

def writeOut (bytes : Bytes) : Act ShellError Unit :=
  (write bytes).mapError .write

def flushOut : Act ShellError Unit :=
  flush.mapError .write

def run (shell : Shell) (source : Source) : Act ShellError Nat := do
  writeOut (Bytes.ofString shell.prompt)
  flushOut
  match _h : source.readLine.1 with
  | .error fault => fail (.read fault)
  | .ok none =>
    log .endOfInput
    writeOut [Bytes.newline]
    flushOut
    pure 0
  | .ok (some line) =>
    happen (.line line)
    match ← shell.executeLine line with
    | .exit code =>
      flushOut
      pure code
    | .proceed => shell.run source.readLine.2
termination_by source.size
decreasing_by exact Source.size_readLine_lt _h

theorem run_eq (shell : Shell) (source : Source) :
    shell.run source = (do
      writeOut (Bytes.ofString shell.prompt)
      flushOut
      match source.readLine.1 with
      | .error fault => fail (.read fault)
      | .ok none =>
        log .endOfInput
        writeOut [Bytes.newline]
        flushOut
        pure 0
      | .ok (some line) =>
        happen (.line line)
        match ← shell.executeLine line with
        | .exit code =>
          flushOut
          pure code
        | .proceed => shell.run source.readLine.2) := by
  rw [run]
  congr
  funext _
  congr
  funext _
  split <;> simp_all

end Shell
end LineShell
