import LineShell.Child.Utility
import LineShell.World

/-!
A small machine for the shell to run on: a few directories, and the utilities under `/bin`.
-/
namespace LineShell.Machine

def utilities : List (String × Utility) :=
  [("args", .showArguments), ("cat", .copyInput), ("complain", .complain), ("cwd", .showDirectory),
    ("env", .showVariables), ("false", .exit 1), ("mkdir", .makeDirectories), ("mv", .rename),
    ("rmdir", .removeDirectories), ("true", .exit 0)]

def path (names : List String) : Path :=
  names.map Bytes.ofString

def tree : Tree :=
  ["bin", "home", "tmp"].map (fun name => (path [name], .directory)) ++
    utilities.map fun (name, utility) => (path ["bin", name], .program utility.run)

/-- What is always bound; the rest comes from where the machine is started. -/
def vars : Variables :=
  [("HOME", "/home"), ("PATH", "/bin"), ("PWD", "/")].map fun (name, value) =>
    ⟨Bytes.ofString name, Bytes.ofString value⟩

def drawingVariables : List String :=
  ["CLICOLOR", "CLICOLOR_FORCE", "COLORTERM", "NO_COLOR", "SH308_LOG", "TERM", "TERM_PROGRAM"]

def world (more : List (String × String)) : World where
  tree := tree
  vars := more.foldl
    (fun vars (name, value) => vars.set (Bytes.ofString name) (Bytes.ofString value))
    vars
  accountHome := some (Bytes.ofString "/home")

end LineShell.Machine
