import LineShell.Fault
import LineShell.LineBuffer

/-!
Output channels. A channel in its present state answers a call and is in another state after it; any
pattern of accepted, cut and failed writes and flushes is some channel's.
-/
namespace LineShell

inductive Call where
  | write (piece : Bytes)
  | flush
  deriving DecidableEq, Repr

/-- A piece is taken whole, or its first bytes are and then the channel fails. -/
inductive WriteReply where
  | whole
  | cut (taken : Nat) (fault : Fault)
  deriving DecidableEq, Repr

namespace WriteReply

def accepted (piece : Bytes) : WriteReply → Bytes
  | whole => piece
  | cut taken _ => piece.take taken

def fault? : WriteReply → Option Fault
  | whole => none
  | cut _ fault => some fault

end WriteReply

/-- How a channel may answer, given the calls before, latest first. -/
structure Behaviour where
  write : List Call → Bytes → WriteReply
  flush : List Call → Option Fault

inductive Channel where
  | accepting
  /-- Takes that many more bytes in all and fails from then on. -/
  | limited (room : Nat) (fault : Fault)
  /-- A line buffer that holds these bytes, in front of a device without room. -/
  | blocked (held : Bytes)
  /-- Another channel with every flush failing. -/
  | failingFlush (channel : Channel) (fault : Fault)
  /-- Answers as it pleases, knowing all calls before. -/
  | answering (behaviour : Behaviour) (calls : List Call)

namespace Channel

def full : Channel := blocked []

def write : Channel → Bytes → WriteReply × Channel
  | accepting, _ => (.whole, accepting)
  | limited room fault, piece =>
    if piece.length ≤ room then (.whole, limited (room - piece.length) fault)
    else (.cut room fault, limited 0 fault)
  | blocked held, piece =>
    let (held, failed) := LineBuffer.write held piece
    (if failed then .cut 0 .noSpace else .whole, blocked held)
  | failingFlush channel fault, piece =>
    let (reply, channel) := channel.write piece
    (reply, failingFlush channel fault)
  | answering behaviour calls, piece =>
    (behaviour.write calls piece, answering behaviour (.write piece :: calls))

def flush : Channel → Option Fault × Channel
  | accepting => (none, accepting)
  | limited room fault => (none, limited room fault)
  | blocked held => (if held.isEmpty then none else some .noSpace, blocked held)
  | failingFlush channel fault => (some fault, failingFlush channel.flush.2 fault)
  | answering behaviour calls => (behaviour.flush calls, answering behaviour (.flush :: calls))

end Channel
end LineShell
