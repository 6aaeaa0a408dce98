import LineShell.Environment
import LineShell.Tokens

/-!
The commands that the shell carries out itself. None of them looks at its own name, and arguments
past those it needs are ignored.
-/
namespace LineShell

inductive Status where
  | proceed
  | exit (code : Nat)
  deriving DecidableEq, Repr

inductive Builtin where
  | cd
  | exit
  | pid
  | ppid
  | pwd
  | get
  | set
  deriving DecidableEq, Repr

namespace Builtin

open Act (world log write)

/-- In the order in which names are looked up. -/
def all : List Builtin := [cd, exit, pid, ppid, pwd, get, set]

def name : Builtin → String
  | cd => "cd"
  | exit => "exit"
  | pid => "pid"
  | ppid => "ppid"
  | pwd => "pwd"
  | get => "get"
  | set => "set"

def ofName? (name : Bytes) : Option Builtin :=
  all.find? fun builtin => Bytes.ofString builtin.name = name

def writeEach (pieces : List Bytes) : Act CommandError Unit :=
  (pieces.forM write : Act Fault Unit).mapError .io

def writeText (text : String) : Act CommandError Unit :=
  writeEach [Bytes.ofString text]

/-- The value goes out as it is; the newline follows by itself. -/
def writeLine (bytes : Bytes) : Act CommandError Unit :=
  writeEach [bytes, [Bytes.newline]]

def writeNumber (label : String) (n : Nat) : Act CommandError Unit :=
  writeEach [Bytes.ofString label, Bytes.ofString (toString n), [Bytes.newline]]

def runCd (list : TokenList) : Act CommandError Status :=
  Act.mapError .env do
    let path ← match list.get? 1 with
      | some path => pure path
      | none => Environment.homeDir
    let current ← Environment.changeDir path
    log (.moved (Utf8.lossy current))
    pure .proceed

def runPwd : Act CommandError Status := do
  writeLine (← (Environment.var Environment.pwd).mapError .env)
  pure .proceed

def askForVariable : Act CommandError Status := do
  writeText "please enter a variable\n"
  pure .proceed

def runGet (list : TokenList) : Act CommandError Status :=
  match list.get? 1 with
  | none => askForVariable
  | some name => do
    match ← (Environment.var name).attempt with
    | .ok value => writeLine value
    | .error _ => writeText "unable to find variable\n"
    pure .proceed

/-- Binds the first argument to the second, or to itself. -/
def runSet (list : TokenList) : Act CommandError Status :=
  match list.get? 1 with
  | none => askForVariable
  | some name => do
    (Environment.setVar name ((list.get? 2).getD name)).mapError .env
    pure .proceed

def run : Builtin → TokenList → Act CommandError Status
  | cd, list => runCd list
  | exit, _ => pure (.exit 1)
  | pid, _ => do
    writeNumber "The PID of the shell is " (← world).pid
    pure .proceed
  | ppid, _ => do
    writeNumber "The PPID of the shell is " (← world).parentPid
    pure .proceed
  | pwd, _ => runPwd
  | get, list => runGet list
  | set, list => runSet list

end Builtin
end LineShell
