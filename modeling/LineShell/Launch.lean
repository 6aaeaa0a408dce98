import LineShell.Act
import LineShell.Child.Exec
import LineShell.Child.Life
import LineShell.Error
import LineShell.Tokens

/-!
Running an external program. The shell starts one child and waits until it is gone: a stop is
noted, an interrupted wait is taken up again, and only an exit or a death ends the wait.
-/
namespace LineShell

open Act (world setWorld fail log happen)

/-- Follows a child to its end. When nothing is left to wait for, the wait itself fails. -/
def awaitEnd (pid : Nat) : List Activity → Act ProcessError Outcome
  | [] => fail (.wait .noChild)
  | .wrote outlet bytes :: later => do
    happen (.childWrote outlet bytes)
    awaitEnd pid later
  | .interrupted :: later => awaitEnd pid later
  | .changed word :: later =>
    if word.isExit then do
      log (.exited pid word.upperByte)
      pure (.exited word.upperByte)
    else if word.isDeath then do
      log (.killed pid word.deathSignal)
      pure (.signaled word.deathSignal)
    else if word.isStop then do
      log (.stopped pid word.upperByte)
      awaitEnd pid later
    else awaitEnd pid later

/-- Starts the program that the first token names, with all tokens as its arguments, and waits. -/
def launch (list : TokenList) : Act ProcessError Outcome :=
  match list.tokens with
  | [] => pure (.exited 0)
  | name :: arguments => do
    happen (.requested (name :: arguments))
    let w ← world
    match w.exec name arguments with
    | .error fault => fail (.ofSpawn (Utf8.lossy name) fault)
    | .ok script =>
      let (activity, w') := World.live script { w with nextPid := w.nextPid + 1 }
      happen (.started (name :: arguments) w.vars)
      setWorld w'
      log (.spawned (Utf8.lossy name) w.nextPid)
      awaitEnd w.nextPid activity

end LineShell
