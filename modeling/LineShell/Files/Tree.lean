import LineShell.Child.Script
import LineShell.Files.Path

/-!
The file tree, as a table from paths to what is there. The root is always a directory. Permission
bits are reduced to one, whether a file may be executed. Directories carry none, as if every one of
them could be searched, read and changed by all; so a walk through them is never denied.
-/
namespace LineShell

inductive Entry where
  | directory
  | file (data : Bytes) (executable : Bool)
  | link (target : Bytes)
  | program (run : Program)

def Entry.isDirectory : Entry → Bool
  | directory => true
  | _ => false

abbrev Tree := List (Path × Entry)

namespace Tree

def find? (tree : Tree) (path : Path) : Option Entry :=
  if path.isEmpty then some .directory else tree.lookup path

def erase (tree : Tree) (path : Path) : Tree :=
  tree.filter (·.1 ≠ path)

def put (tree : Tree) (path : Path) (entry : Entry) : Tree :=
  tree.erase path ++ [(path, entry)]

def move (tree : Tree) (source target : Path) : Tree :=
  tree.map fun (path, entry) => (path.rebase source target, entry)

def isOccupied (tree : Tree) (path : Path) : Bool :=
  tree.any fun (entryPath, _) => !entryPath.isEmpty && entryPath.dropLast = path

end Tree
end LineShell
