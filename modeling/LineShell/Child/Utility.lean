import LineShell.Child.Script

/-!
A few small programs, each a script over its arguments: enough to show what a child can see of the
shell and do to it.
-/
namespace LineShell

inductive Utility where
  | showArguments
  | exit (code : UInt8)
  | die (signal : Signal)
  /-- Stops, and exits once it is resumed. -/
  | stop (code : UInt8)
  | showVariables
  | showDirectory
  | copyInput
  /-- Writes its arguments to the diagnostic stream and fails. -/
  | complain
  | useBothOutlets
  | makeDirectories
  | removeDirectories
  | rename
  deriving DecidableEq, Repr

namespace Utility

def stopSignal : Signal := ⟨19, by decide, by decide⟩

def argumentLine (index : Nat) (argument : Bytes) : Bytes :=
  Bytes.ofString s!"[{index}]=" ++ argument ++ [Bytes.newline]

def writeAll (outlet : Outlet) : List Bytes → Script → Script
  | [], next => next
  | bytes :: rest, next => .write outlet bytes (writeAll outlet rest next)

def variableLine (vars : Variables) (name : Bytes) : Bytes :=
  match vars.get? name with
  | some value => name ++ Bytes.equals :: value ++ [Bytes.newline]
  | none => name ++ Bytes.ofString " unset\n"

/-- Makes a request for each path in turn and fails if one of them was refused. -/
def each (request : Bytes → (Bool → Script) → Script) (refused : Bool) : List Bytes → Script
  | [] => .exit (if refused then 1 else 0)
  | path :: rest => request path fun granted => each request (refused || !granted) rest

def run : Utility → Program
  | showArguments, argv, _ =>
    .write .output (Bytes.ofString s!"argc={argv.length}\n")
      (writeAll .output (argv.mapIdx argumentLine) (.exit 0))
  | exit code, _, _ => .exit code
  | die signal, _, _ => .die signal false
  | stop code, _, _ => .stop stopSignal (.exit code)
  | showVariables, argv, vars =>
    writeAll .output (argv.tail.map (variableLine vars))
      (.exit (if argv.tail.all fun name => (vars.get? name).isSome then 0 else 1))
  | showDirectory, _, _ =>
    .askDirectory fun
      | some path => .write .output (path ++ [Bytes.newline]) (.exit 0)
      | none => .write .output (Bytes.ofString "no cwd\n") (.exit 1)
  | copyInput, _, _ => .readInput fun input => .write .output input (.exit 0)
  | complain, argv, _ =>
    .write .diagnostics (([32] : Bytes).intercalate argv.tail ++ [Bytes.newline]) (.exit 2)
  | useBothOutlets, _, _ =>
    .write .output (Bytes.ofString "out1\n")
      (.write .diagnostics (Bytes.ofString "err1\n")
        (.write .output (Bytes.ofString "out2\n") (.exit 0)))
  | makeDirectories, argv, _ => each .makeDirectory false argv.tail
  | removeDirectories, argv, _ => each .removeDirectory false argv.tail
  | rename, [_, source, target], _ =>
    .rename source target fun granted => .exit (if granted then 0 else 1)
  | rename, _, _ => .exit 1

end Utility
end LineShell
