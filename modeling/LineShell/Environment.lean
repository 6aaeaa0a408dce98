import LineShell.Act
import LineShell.Error

/-!
The shell's environment: variables, home directory and working directory. Changing directory is the
one act here that does two things: it moves first, and records the new directory in `PWD` only once
that could be read back.
-/
namespace LineShell.Environment

open Act (world setWorld fail happen)

def home : Bytes := Bytes.ofString "HOME"

def pwd : Bytes := Bytes.ofString "PWD"

def var (name : Bytes) : Act EnvError Bytes := do
  match (← world).vars.get? name with
  | some value => pure value
  | none => fail (.unset (Utf8.lossy name))

def bind (name value : Bytes) : Act EnvError Unit := do
  let w ← world
  setWorld { w with vars := w.vars.set name value }
  happen (.bound name value)

/-- Refuses what the store cannot hold, first by the name and then by the value. -/
def setVar (name value : Bytes) : Act EnvError Unit := do
  if !Variables.validName name then fail (.badName (Utf8.lossy name))
  else if value.hasNul then fail (.badValue "contains a NUL byte")
  else bind name value

/-- `HOME` if it says anything, else the account database. -/
def homeDir : Act EnvError Bytes := do
  let w ← world
  match (w.vars.get? home).filter (!·.isEmpty) <|> w.accountHome with
  | some path => pure path
  | none => fail .noHome

def currentDir : Act EnvError Bytes := do
  Act.ofExcept ((← world).workingDirectory.mapError .io)

/-- Moves to the directory a path names, and keeps `PWD` in step. -/
def changeDir (path : Bytes) : Act EnvError Bytes := do
  setWorld (← Act.ofExcept (((← world).moveTo path).mapError (.changeDir path)))
  let current ← currentDir
  bind pwd current
  pure current

end LineShell.Environment
