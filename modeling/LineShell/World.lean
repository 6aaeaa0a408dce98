import LineShell.Files.Walk

/-!
The system around the shell: files, working directory, environment, and what its children share.
Changing directory and reading it back are two requests, and the second can fail alone.
-/
namespace LineShell

structure World where
  tree : Tree := []
  cwd : Place := .root
  vars : Variables := []
  accountHome : Option Bytes := none
  /-- What children find on standard input; what one reads, the next does not see. -/
  childInput : Bytes := []
  pid : Nat := 2
  parentPid : Nat := 1
  nextPid : Nat := 3
  /-- Whether the system keeps a finished child until its parent has asked how it ended. -/
  keepsEnded : Bool := true

namespace World

def workingDirectory (w : World) : Except Fault Bytes :=
  match w.cwd.path? with
  | some path => .ok path.render
  | none => .error .noEntry

def nulInPath : Fault :=
  .worded .invalidInput "file name contained an unexpected NUL byte"

def moveTo (w : World) (path : Bytes) : Except Fault World :=
  if path.hasNul then .error nulInPath
  else
    match w.tree.resolve w.cwd path with
    | .ok (.directory place) => .ok { w with cwd := place }
    | .ok (.leaf _ _) => .error .notDirectory
    | .error fault => .error fault

/-- The directory that holds the last name of a path, and that name, if it is one that can be made,
removed or moved. -/
def holder? (w : World) (path : Bytes) : Option (Path × Bytes) := do
  guard (path.length ≤ Tree.longestPath)
  let names := Path.written path
  let name ← names.getLast?
  guard (name ≠ Path.dot ∧ name ≠ Path.dotDot ∧ name.length ≤ Tree.longestName)
  match w.tree.walk Tree.mostLinks (Tree.origin w.cwd path) names.dropLast with
  | .ok (.directory (.live above)) => some (above, name)
  | _ => none

def makeDirectory (w : World) (path : Bytes) : Option World := do
  let (above, name) ← w.holder? path
  guard (w.tree.find? (above ++ [name])).isNone
  pure { w with tree := w.tree.put (above ++ [name]) .directory }

/-- The world without the directory at a path; who sits in it stays, in a removed place. -/
def dropDirectory (w : World) (path : Path) : World :=
  { w with tree := w.tree.erase path, cwd := w.cwd.afterRemoval path }

def removeDirectory (w : World) (path : Bytes) : Option World := do
  let (above, name) ← w.holder? path
  let target := above ++ [name]
  let entry ← w.tree.find? target
  guard (entry.isDirectory && !w.tree.isOccupied target)
  pure (w.dropDirectory target)

/-- Moves a directory or file. It may take the place of a file, or of an empty directory if it is a
directory itself; it cannot move below itself. -/
def rename (w : World) (source target : Bytes) : Option World := do
  let (sourceAbove, sourceName) ← w.holder? source
  let (targetAbove, targetName) ← w.holder? target
  let old := sourceAbove ++ [sourceName]
  let new := targetAbove ++ [targetName]
  let entry ← w.tree.find? old
  guard (entry.isDirectory || !(Path.endsInSlash source || Path.endsInSlash target))
  if old = new then pure w
  else
    guard (!old.isPrefixOf new)
    let cleared ← match w.tree.find? new with
      | none => some w
      | some there =>
        if there.isDirectory != entry.isDirectory || w.tree.isOccupied new then none
        else some (w.dropDirectory new)
    pure { cleared with
      tree := cleared.tree.move old new
      cwd := cleared.cwd.rebase old new }

end World
end LineShell
