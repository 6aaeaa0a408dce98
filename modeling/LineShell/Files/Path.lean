import LineShell.Bytes

/-!
Paths and places. A path lists the names from the root down to a directory or file, free of links
and dots. A place is where a process sits: a directory that may have been removed under it, in which
case only the way up remains.
-/
namespace LineShell

abbrev Path := List Bytes

namespace Path

def dot : Bytes := Bytes.ofString "."

def dotDot : Bytes := Bytes.ofString ".."

def render : Path → Bytes
  | [] => [Bytes.slash]
  | names => names.flatMap (Bytes.slash :: ·)

def written (path : Bytes) : List Bytes :=
  (path.splitWhere (· == Bytes.slash)).filter (!·.isEmpty)

def isAbsolute (path : Bytes) : Bool :=
  path.head? = some Bytes.slash

def endsInSlash (path : Bytes) : Bool :=
  path.getLast? = some Bytes.slash

/-- The names to walk along. A slash at the end asks for a directory, as a final dot would. -/
def steps (path : Bytes) : List Bytes :=
  written path ++ if endsInSlash path then [dot] else []

end Path

inductive Place where
  | live (path : Path)
  | removed (parent : Place)
  deriving DecidableEq, Repr

namespace Place

def root : Place := live []

/-- One level up; the root is its own parent. -/
def parent : Place → Place
  | live path => live path.dropLast
  | removed above => above

def path? : Place → Option Path
  | live path => some path
  | removed _ => none

def afterRemoval (gone : Path) : Place → Place
  | live path => if path = gone then removed (live path.dropLast) else live path
  | removed above => removed (above.afterRemoval gone)

end Place

/-- The path after everything at or below `source` has moved to `target`. -/
def Path.rebase (path source target : Path) : Path :=
  if source.isPrefixOf path then target ++ path.drop source.length else path

def Place.rebase (source target : Path) : Place → Place
  | live path => live (Path.rebase path source target)
  | removed above => removed (above.rebase source target)

end LineShell
