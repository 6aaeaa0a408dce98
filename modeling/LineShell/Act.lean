import LineShell.Channel
import LineShell.Record
import LineShell.World

/-!
Acts of the shell. An act takes a session to the next one, tells what happened on the way, and
ends with a value or an error; what it did before an error stays done.
-/
namespace LineShell

/-- What an onlooker sees happen, in order. -/
inductive Event where
  | line (line : Bytes)
  | wrote (piece : Bytes) (reply : WriteReply)
  /-- The output channel was asked to let go of all it holds. -/
  | flushed (fault : Option Fault)
  | complained (piece : Bytes) (reply : WriteReply)
  | bound (name value : Bytes)
  | requested (argv : List Bytes)
  /-- A child was started, with its arguments and its environment. -/
  | started (argv : List Bytes) (vars : Variables)
  | childWrote (outlet : Outlet) (bytes : Bytes)
  | record (record : Record)
  deriving DecidableEq, Repr

structure Session where
  world : World
  out : Channel
  err : Channel

structure Step (ε α : Type) where
  result : Except ε α
  events : List Event
  session : Session

/-- An act that fails with an `ε` or brings an `α`. -/
def Act (ε α : Type) : Type :=
  Session → Step ε α

namespace Act

variable {ε δ α β : Type}

def pure (value : α) : Act ε α := fun s =>
  ⟨.ok value, [], s⟩

def fail (error : ε) : Act ε α := fun s =>
  ⟨.error error, [], s⟩

/-- The second act follows unless the first has failed. -/
def bind (first : Act ε α) (next : α → Act ε β) : Act ε β := fun s =>
  match first s with
  | ⟨.error error, events, s'⟩ => ⟨.error error, events, s'⟩
  | ⟨.ok value, events, s'⟩ =>
    let after := next value s'
    ⟨after.result, events ++ after.events, after.session⟩

instance : Monad (Act ε) where
  pure := pure
  bind := bind

def happen (event : Event) : Act ε Unit := fun s =>
  ⟨.ok (), [event], s⟩

def log (record : Record) : Act ε Unit :=
  happen (.record record)

def world : Act ε World := fun s =>
  ⟨.ok s.world, [], s⟩

def setWorld (world : World) : Act ε Unit := fun s =>
  ⟨.ok (), [], { s with world := world }⟩

def ofExcept : Except ε α → Act ε α
  | .ok value => pure value
  | .error error => fail error

def mapError (f : ε → δ) (act : Act ε α) : Act δ α := fun s =>
  let step := act s
  ⟨step.result.mapError f, step.events, step.session⟩

/-- The same act with its failure as a value. -/
def attempt (act : Act ε α) : Act δ (Except ε α) := fun s =>
  let step := act s
  ⟨.ok step.result, step.events, step.session⟩

def ofFault? : Option ε → Act ε Unit
  | none => pure ()
  | some error => fail error

/-- Writes a piece to the output channel; for an empty one there is nothing to do. -/
def write (piece : Bytes) : Act Fault Unit :=
  if piece.isEmpty then pure ()
  else bind
    (fun s =>
      let (reply, out) := s.out.write piece
      ⟨.ok reply, [.wrote piece reply], { s with out := out }⟩)
    fun reply => ofFault? reply.fault?

def flush : Act Fault Unit :=
  bind
    (fun s =>
      let (fault, out) := s.out.flush
      ⟨.ok fault, [.flushed fault], { s with out := out }⟩)
    ofFault?

def complain (piece : Bytes) : Act Fault Unit :=
  if piece.isEmpty then pure ()
  else bind
    (fun s =>
      let (reply, err) := s.err.write piece
      ⟨.ok reply, [.complained piece reply], { s with err := err }⟩)
    fun reply => ofFault? reply.fault?

end Act
end LineShell
