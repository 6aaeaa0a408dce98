import LineShell.Bytes
import LineShell.Fault
import LineShell.Text.Quoted
import LineShell.Text.Utf8

/-!
Why a startup, a command or the whole loop failed. Each error has one message, which ends with the
message of its cause, and a chain of the messages of its causes, nearest first.
-/
namespace LineShell

/-- Startup arguments that ask for nothing the shell offers. -/
inductive ArgumentError where
  | unknown
  | count
  deriving DecidableEq, Repr

namespace ArgumentError

def message : ArgumentError → String
  | unknown => "Invalid arguments"
  | count => "Invalid number of arguments"

def sources : ArgumentError → List String
  | _ => []

end ArgumentError

inductive EnvError where
  | noHome
  | unset (name : String)
  | badName (name : String)
  | badValue (reason : String)
  | changeDir (path : Bytes) (cause : Fault)
  | io (cause : Fault)
  deriving DecidableEq, Repr

namespace EnvError

def message : EnvError → String
  | noHome => "home directory not found"
  | unset name => "environment variable not found: " ++ name
  | badName name => "invalid variable name: " ++ Text.quoted name
  | badValue reason => "invalid value: " ++ reason
  | changeDir path cause => Utf8.lossy path ++ ": " ++ cause.message
  | io cause => "IO error: " ++ cause.message

def sources : EnvError → List String
  | changeDir _ cause | io cause => [cause.message]
  | _ => []

end EnvError

inductive ProcessError where
  | notFound (command : String)
  | denied (command : String)
  | spawn (command : String) (cause : Fault)
  | wait (cause : Fault)
  deriving DecidableEq, Repr

namespace ProcessError

/-- A program that is absent and one that may not be run have words of their own. -/
def ofSpawn (command : String) (cause : Fault) : ProcessError :=
  if cause.saysNotFound then notFound command
  else if cause.saysDenied then denied command
  else spawn command cause

def message : ProcessError → String
  | notFound _ => "command not found"
  | denied _ => "permission denied"
  | spawn _ cause => "failed to start: " ++ cause.message
  | wait cause => "failed to wait for child: " ++ cause.message

def sources : ProcessError → List String
  | spawn _ cause | wait cause => [cause.message]
  | _ => []

end ProcessError

/-- Failures of one command; the loop reports them and goes on. -/
inductive CommandError where
  | env (cause : EnvError)
  | process (cause : ProcessError)
  | io (cause : Fault)
  deriving DecidableEq, Repr

namespace CommandError

def message : CommandError → String
  | env cause => cause.message
  | process cause => cause.message
  | io cause => "IO error: " ++ cause.message

def sources : CommandError → List String
  | env cause => cause.message :: cause.sources
  | process cause => cause.message :: cause.sources
  | io cause => [cause.message]

end CommandError

inductive ShellError where
  | read (cause : Fault)
  | write (cause : Fault)
  deriving DecidableEq, Repr

namespace ShellError

def message : ShellError → String
  | read cause => "failed to read input: " ++ cause.message
  | write cause => "failed to write output: " ++ cause.message

def sources : ShellError → List String
  | read cause | write cause => [cause.message]

end ShellError
end LineShell
