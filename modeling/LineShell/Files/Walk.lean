import LineShell.Fault
import LineShell.Files.Tree

/-!
Finding what a written path names. Links are followed where they are met, so `..` after a link leads
up from where the link points, and at most forty of them are followed in one walk.
-/
namespace LineShell

/-- What a walk arrives at: a place to be in, or something that is no directory. -/
inductive Found where
  | directory (place : Place)
  | leaf (path : Path) (entry : Entry)

namespace Tree

def longestName : Nat := 255

def longestPath : Nat := 4095

def mostLinks : Nat := 40

/-- Walks along the names, leaving what follows a link to `onLink`. -/
def walkWith (tree : Tree) (onLink : Place → List Bytes → Except Fault Found) :
    Place → List Bytes → Except Fault Found
  | place, [] => .ok (.directory place)
  | place, name :: names =>
    if name = Path.dot then walkWith tree onLink place names
    else if name = Path.dotDot then walkWith tree onLink place.parent names
    else
      match place with
      | .removed _ => .error .noEntry
      | .live path =>
        if longestName < name.length then .error .nameTooLong
        else
          match tree.find? (path ++ [name]) with
          | none => .error .noEntry
          | some .directory => walkWith tree onLink (.live (path ++ [name])) names
          | some (.link target) =>
            onLink (if Path.isAbsolute target then .root else .live path)
              (Path.steps target ++ names)
          | some entry =>
            if names.isEmpty then .ok (.leaf (path ++ [name]) entry) else .error .notDirectory

/-- Walks along the names with that many links to follow at most. -/
def walk (tree : Tree) : Nat → Place → List Bytes → Except Fault Found
  | 0 => tree.walkWith fun _ _ => .error .linkLoop
  | links + 1 => tree.walkWith (tree.walk links)

def origin (cwd : Place) (path : Bytes) : Place :=
  if Path.isAbsolute path then .root else cwd

def resolve (tree : Tree) (cwd : Place) (path : Bytes) : Except Fault Found :=
  if path.isEmpty then .error .noEntry
  else if longestPath < path.length then .error .nameTooLong
  else tree.walk mostLinks (origin cwd path) (Path.steps path)

end Tree
end LineShell
