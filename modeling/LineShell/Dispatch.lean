import LineShell.Builtin
import LineShell.Launch

/-!
Dispatch. A first token that is the name of a built-in, byte for byte, runs that built-in; any other
is launched once all output is out, so that it comes before the child's.
-/
namespace LineShell

open Act (log flush)

/-- Launches and takes any end of the child as success. -/
def runExternal (name : Bytes) (list : TokenList) : Act CommandError Status := do
  flush.mapError .io
  log (.external (Utf8.lossy name))
  let outcome ← (launch list).mapError .process
  if !outcome.success then log (.finished (Utf8.lossy name) outcome)
  pure .proceed

def execute (list : TokenList) : Act CommandError Status :=
  match list.command? with
  | none => pure .proceed
  | some name =>
    match Builtin.ofName? name with
    | some builtin => do
      log (.builtin (Utf8.lossy name))
      builtin.run list
    | none => runExternal name list

end LineShell
