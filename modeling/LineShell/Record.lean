import LineShell.Child.Status

/-!
Records of the shell's work. Each says one thing that happened; where the records go and how they
are drawn is no concern of the code that makes them.
-/
namespace LineShell

inductive Record where
  | builtin (name : String)
  | external (name : String)
  | finished (name : String) (outcome : Outcome)
  | moved (path : String)
  | spawned (name : String) (pid : Nat)
  | exited (pid : Nat) (code : Nat)
  | killed (pid : Nat) (signal : Nat)
  | stopped (pid : Nat) (signal : Nat)
  | endOfInput
  deriving DecidableEq, Repr

namespace Record

def target : Record → String
  | builtin _ | external _ | finished _ _ => "sh308::core::commands"
  | moved _ => "sh308::core::commands::cd"
  | spawned _ _ | exited _ _ | killed _ _ | stopped _ _ => "sh308::process::launcher"
  | endOfInput => "sh308::shell"

/-- The text of a record, with process numbers shown as the reader wants them. -/
def message (showPid : Nat → String) : Record → String
  | builtin name => "builtin: " ++ name
  | external name => "external: " ++ name
  | finished name outcome => name ++ " finished with " ++ outcome.text
  | moved path => "cwd is now " ++ path
  | spawned name pid => "spawned " ++ name ++ " as pid " ++ showPid pid
  | exited pid code => "pid " ++ showPid pid ++ s!" exited with {code}"
  | killed pid signal => "pid " ++ showPid pid ++ s!" killed by signal {signal}"
  | stopped pid signal => "pid " ++ showPid pid ++ s!" stopped by signal {signal}"
  | endOfInput => "end of input"

end Record
end LineShell
