import LineShell.Act

/-!
What arrives on the two standard streams. An output channel may hold back what it has accepted until
it is flushed, and may let go of some of it earlier; everything else arrives at once.
-/
namespace LineShell

def Event.accepted : Event → Bytes
  | wrote piece reply => reply.accepted piece
  | _ => []

def Event.releases : Event → Bool
  | flushed none => true
  | _ => false

/-- Bytes that an event sends to a stream at once, with records drawn on the diagnostic one. -/
def Event.direct (draw : Record → Bytes) : Event → List (Outlet × Bytes)
  | complained piece reply => [(.diagnostics, reply.accepted piece)]
  | childWrote outlet bytes => [(outlet, bytes)]
  | record r => [(.diagnostics, draw r)]
  | _ => []

/-- How many of the bytes that it holds the output channel lets go after an event of its own accord,
by the number of events before. -/
abbrev Release := Nat → Bytes → Nat

def untilFlush : Release := fun _ _ => 0

/-- What arrives on each stream, in order; what is still held at the end arrives last. -/
def arrivals (draw : Record → Bytes) (release : Release) (moment : Nat) (held : Bytes) :
    List Event → List (Outlet × Bytes)
  | [] => [(.output, held)]
  | event :: later =>
    let holding := held ++ event.accepted
    let freed := if event.releases then holding.length else release moment holding
    event.direct draw ++ (.output, holding.take freed) ::
      arrivals draw release (moment + 1) (holding.drop freed) later

def shownOn (outlet : Outlet) (arrived : List (Outlet × Bytes)) : Bytes :=
  (arrived.filter (·.1 = outlet)).flatMap (·.2)

def shownTogether (arrived : List (Outlet × Bytes)) : Bytes :=
  arrived.flatMap (·.2)

def records (events : List Event) : List Record :=
  events.filterMap fun
    | .record record => some record
    | _ => none

end LineShell
