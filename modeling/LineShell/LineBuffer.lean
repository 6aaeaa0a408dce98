import LineShell.Bytes

/-!
A line buffer in front of a device that has no room. Whole lines go out as they are completed, so a
write fails once it completes a line; what cannot go out stays in the buffer and fails every flush.
-/
namespace LineShell.LineBuffer

def capacity : Nat := 1024

/-- Bytes held after a piece was put into the buffer behind `held`, and whether that failed. -/
def store (held piece : Bytes) : Bytes × Bool :=
  if held.length + piece.length < capacity then (held ++ piece, false)
  else if capacity < held.length + piece.length && !held.isEmpty then (held, true)
  else if capacity ≤ piece.length then (held, true)
  else (held ++ piece, false)

/-- A piece without a newline is stored once completed lines are out. Of a piece with one, the
lines go straight out if nothing is held and are stored and pushed out otherwise: both fail. -/
def write (held piece : Bytes) : Bytes × Bool :=
  if piece.contains Bytes.newline then
    if held.isEmpty then (held, true)
    else
      let lines := (piece.reverse.dropWhile (· != Bytes.newline)).reverse
      ((store held lines).1, true)
  else if held.getLast? = some Bytes.newline then (held, true)
  else store held piece

end LineShell.LineBuffer
