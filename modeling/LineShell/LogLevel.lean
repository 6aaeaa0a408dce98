import LineShell.Text.Blank
import LineShell.Text.Utf8
import LineShell.Variables

/-!
How much the shell tells about its work, chosen by the environment variable `SH308_LOG`. Every
record of the shell is of level `debug`.
-/
namespace LineShell

inductive LogLevel where
  | off
  | error
  | warn
  | info
  | debug
  | trace
  deriving DecidableEq, Repr

namespace LogLevel

def all : List LogLevel := [off, error, warn, info, debug, trace]

def name : LogLevel → String
  | off => "OFF"
  | error => "ERROR"
  | warn => "WARN"
  | info => "INFO"
  | debug => "DEBUG"
  | trace => "TRACE"

def variableName : String := "SH308_LOG"

/-- Upper and lower case of ASCII letters are not told apart, and white space around is dropped. -/
def parse? (text : String) : Option LogLevel :=
  all.find? fun level => level.name.toList = (Text.trim text.toList).map Char.toUpper

/-- What is unset or means nothing is `off`. -/
def ofVariables (vars : Variables) : LogLevel :=
  (((vars.get? (Bytes.ofString variableName)).bind Utf8.decode?).bind parse?).getD off

/-- Told when records are wanted but something else already takes them; the level holds anyway. -/
def takenWarning (level : LogLevel) : String :=
  if level = off then "" else "Warning: Couldn't install logger\n"

def showsDebug (level : LogLevel) : Bool :=
  level = debug || level = trace

end LogLevel
end LineShell
