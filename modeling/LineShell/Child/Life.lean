import LineShell.Child.Status
import LineShell.World

/-!
A child's life as its parent sees it: what it writes and the changes that the system reports, in
order. The child is alone while the parent waits, so its requests are answered one after the other.
-/
namespace LineShell

/-- What the parent sees while it waits. A wait is `interrupted` by a signal to the parent; no child
sends one here, so `World.live` has none. -/
inductive Activity where
  | wrote (outlet : Outlet) (bytes : Bytes)
  | changed (word : StatusWord)
  | interrupted
  deriving DecidableEq, Repr

namespace World

/-- An end is reported only if the system keeps the ended child. -/
def reportEnd (w : World) (change : Change) : List Activity :=
  if w.keepsEnded then [.changed change.word] else []

def granted (w : World) (request : Option World) : World :=
  request.getD w

def live : Script → World → List Activity × World
  | .exit code, w => (w.reportEnd (.exited code), w)
  | .die signal coreDumped, w => (w.reportEnd (.killed signal coreDumped), w)
  | .stop signal next, w =>
    let (after, w') := live next w
    (.changed (Change.stopped signal).word :: after, w')
  | .write outlet bytes next, w =>
    let (after, w') := live next w
    (.wrote outlet bytes :: after, w')
  | .readInput next, w => live (next w.childInput) { w with childInput := [] }
  | .askDirectory next, w => live (next w.workingDirectory.toOption) w
  | .makeDirectory path next, w =>
    live (next (w.makeDirectory path).isSome) (w.granted (w.makeDirectory path))
  | .removeDirectory path next, w =>
    live (next (w.removeDirectory path).isSome) (w.granted (w.removeDirectory path))
  | .rename source target next, w =>
    live (next (w.rename source target).isSome) (w.granted (w.rename source target))

end World
end LineShell
