import LineShell.Child.Interpreter
import LineShell.World

/-!
Starting a program. A name with a slash is a path; any other is looked for along `PATH`, where an
element that lacks the program is passed over and one that refuses it is remembered.
-/
namespace LineShell

inductive Image where
  | program (run : List Bytes → Variables → Script)
  | text (data : Bytes)

namespace World

/-- One argument or environment entry of this length or more does not fit. -/
def argumentLimit : Nat := 131072

/-- The room for a program's path, its arguments and its environment together. -/
def startRoom : Nat := 2097152

def pointerSize : Nat := 8

/-- Chains of interpreters longer than this are taken for a loop. -/
def mostInterpreters : Nat := 5

def textSize (strings : List Bytes) : Nat :=
  strings.foldl (· + ·.length + 1) 0

def entries (w : World) : List Bytes :=
  w.vars.map Variable.entry

/-- The room left for the text of the arguments once the path, the environment and a pointer to each
string are placed. It is measured once: what an interpreter adds later gets no pointer. -/
def argumentRoom (w : World) (path : Bytes) (argv : List Bytes) : Nat :=
  startRoom - (textSize (path :: w.entries) + pointerSize * (argv.length + w.entries.length))

def fits (w : World) (path : Bytes) (argv : List Bytes) : Bool :=
  (argv ++ w.entries).all (·.length < argumentLimit) && textSize argv ≤ w.argumentRoom path argv

/-- The executable file at a path. The empty path is the working directory, which cannot be run. -/
def image (w : World) (path : Bytes) : Except Fault Image :=
  if path.isEmpty then .error .accessDenied
  else
    match w.tree.resolve w.cwd path with
    | .error fault => .error fault
    | .ok (.leaf _ (.program run)) => .ok (.program run)
    | .ok (.leaf _ (.file data true)) => .ok (.text data)
    | .ok _ => .error .accessDenied

/-- What running an image does in that much room, through that many interpreters at most. The one
that is too many is still looked for: that it cannot be run is the fault reported first. -/
def load (w : World) (room : Nat) : Nat → Image → Bytes → List Bytes → Except Fault Script
  | _, .program run, _, argv => .ok (run argv w.vars)
  | levels, .text data, path, argv =>
    match Interpreter.ofFile? data with
    | none => .error .notExecutable
    | some i =>
      let argv := i.path :: i.argument.toList ++ path :: argv.tail
      if room < textSize argv then .error .argumentTooLong
      else
        match w.image i.path, levels with
        | .error fault, _ => .error fault
        | .ok _, 0 => .error .linkLoop
        | .ok image, levels + 1 => w.load room levels image i.path argv

def execPath (w : World) (path : Bytes) (argv : List Bytes) : Except Fault Script :=
  match w.image path with
  | .error fault => .error fault
  | .ok image =>
    if w.fits path argv then w.load (w.argumentRoom path argv) mostInterpreters image path argv
    else .error .argumentTooLong

def standardPath : Bytes := Bytes.ofString "/bin:/usr/bin"

def searchPath (w : World) : List Bytes :=
  ((w.vars.get? (Bytes.ofString "PATH")).getD standardPath).splitWhere (· == Bytes.colon)

/-- A program's path in a directory of the search path; the empty element is the working
directory. -/
def candidate (directory name : Bytes) : Bytes :=
  if directory.isEmpty then name else directory ++ Bytes.slash :: name

def passesOver (fault : Fault) : Bool :=
  fault = .noEntry || fault = .notDirectory || fault = .accessDenied

/-- Tries directories in turn. A denied one decides the fault if none has the program; else the last
one tried does. An element too long for a path stands for the working directory, or for nothing
where it comes last. -/
def search (w : World) (argv : List Bytes) (name : Bytes) (denied : Bool) (last : Fault) :
    List Bytes → Except Fault Script
  | [] => .error (if denied then .accessDenied else last)
  | directory :: rest =>
    let tooLong := Tree.longestPath < directory.length
    if tooLong && rest.isEmpty then w.search argv name denied last rest
    else
      match w.execPath (candidate (if tooLong then [] else directory) name) argv with
      | .ok script => .ok script
      | .error fault =>
        if passesOver fault then
          w.search argv name (denied || fault = .accessDenied) fault rest
        else .error fault

def nulInArgument : Fault :=
  .worded .invalidInput "nul byte found in provided data"

/-- What the program does that an argument vector asks for, or why it cannot be started. Of a name
that is looked for, no more is used than makes it longer than any file's. -/
def exec (w : World) (name : Bytes) (arguments : List Bytes) : Except Fault Script :=
  let argv := name :: arguments
  if argv.any Bytes.hasNul then .error nulInArgument
  else if name.isEmpty then .error .noEntry
  else if name.contains Bytes.slash then w.execPath name argv
  else w.search argv (name.take (Tree.longestName + 1)) false .noEntry w.searchPath

end World
end LineShell
