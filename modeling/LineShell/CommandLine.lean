import LineShell.LogLevel
import LineShell.Screen
import LineShell.Shell

/-!
The whole program: startup arguments, the environment's say in records and colour, the loop, and
the exit status. Refused arguments are told and nothing else happens, with status 0. Who ends with
something to tell and cannot tell it ends with a status of its own.
-/
namespace LineShell

inductive LogStyle where
  | plain
  | coloured
  deriving DecidableEq, Repr

namespace LogStyle

/-- Fixed at startup, without asking whether there is a terminal. -/
def ofVariables (vars : Variables) : LogStyle :=
  let get name := vars.get? (Bytes.ofString name)
  match get "TERM", get "NO_COLOR" with
  | some terminal, none => if terminal = Bytes.ofString "dumb" then plain else coloured
  | _, _ => plain

def tag : LogStyle → String
  | plain => "[DEBUG] "
  | coloured => "\x1b[0m\x1b[36m[DEBUG] \x1b[0m"

def line (style : LogStyle) (showPid : Nat → String) (record : Record) : String :=
  style.tag ++ "(1) " ++ record.target ++ ": " ++ record.message showPid ++ "\n"

end LogStyle

namespace CommandLine

open Act (world complain)

/-- The line that a record is drawn as, which is nothing below the level of the records. -/
def draw (vars : Variables) (showPid : Nat → String) (record : Record) : Bytes :=
  if (LogLevel.ofVariables vars).showsDebug then
    Bytes.ofString ((LogStyle.ofVariables vars).line showPid record)
  else []

/-- The status of a program that could not tell why it ends. -/
def untoldStatus : Nat := 101

def leave {ε : Type} (text : String) (status : Nat) : Act ε Nat := do
  match ← (complain (Bytes.ofString (text ++ "\n"))).attempt with
  | .ok () => pure status
  | .error _ => pure untoldStatus

def run {ε : Type} (arguments : List String) (terminal : Bool) (source : Source) :
    Act ε Nat := do
  match Options.parse arguments with
  | .error error => leave error.message 0
  | .ok options =>
    let shell : Shell := ⟨options.prompt, .ofTerminal terminal (← world).vars⟩
    match ← (shell.run source).attempt with
    | .ok code => pure code
    | .error error => leave ("sh308: " ++ error.message) 1

end CommandLine
end LineShell
