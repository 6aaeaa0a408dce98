import LineShell.Bytes

/-!
The environment store: variables in the order in which they were first bound. A name is looked up
as the system does it, by the text `NAME=VALUE` that starts with the name and an equals sign, so a
name with an equals sign in it may find part of another variable's value.
-/
namespace LineShell

structure Variable where
  name : Bytes
  value : Bytes
  deriving DecidableEq, Repr

abbrev Variables := List Variable

/-- The entry as the system keeps it and as a child inherits it. -/
def Variable.entry (v : Variable) : Bytes :=
  v.name ++ Bytes.equals :: v.value

/-- The variable that an entry makes: its name ends before the first equals sign after its first
byte. -/
def Variable.ofEntry? : Bytes → Option Variable
  | [] => none
  | b :: rest =>
    let name := rest.takeWhile (· != Bytes.equals)
    match rest.drop name.length with
    | [] => none
    | _ :: value => some ⟨b :: name, value⟩

namespace Variables

/-- The empty name and a name with a NUL byte are bound to nothing. -/
def get? (vars : Variables) (name : Bytes) : Option Bytes :=
  if name.isEmpty || name.hasNul then none
  else vars.findSome? fun v => Bytes.after? (name ++ [Bytes.equals]) v.entry

def set : Variables → Bytes → Bytes → Variables
  | [], name, value => [⟨name, value⟩]
  | v :: rest, name, value =>
    if v.name = name then ⟨name, value⟩ :: rest else v :: set rest name value

def erase (vars : Variables) (name : Bytes) : Variables :=
  vars.filter (·.name ≠ name)

def names (vars : Variables) : List Bytes :=
  vars.map Variable.name

def validName (name : Bytes) : Bool :=
  !(name.isEmpty || name.contains Bytes.equals || name.hasNul)

end Variables
end LineShell
