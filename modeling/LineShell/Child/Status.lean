import LineShell.Child.Script

/-!
Wait status words. The low seven bits are 0 after an exit, 127 for a stop and the signal's number
after a death; bit 7 is set if core was dumped; the next byte is the exit code or the stop signal.
-/
namespace LineShell

inductive Change where
  | exited (code : UInt8)
  | killed (signal : Signal) (coreDumped : Bool)
  | stopped (signal : Signal)
  deriving DecidableEq, Repr

abbrev StatusWord := Nat

def Change.word : Change → StatusWord
  | exited code => code.toNat * 256
  | killed signal coreDumped => signal.number + if coreDumped then 128 else 0
  | stopped signal => signal.number * 256 + 127

namespace StatusWord

def isExit (word : StatusWord) : Bool :=
  word % 128 = 0

def isDeath (word : StatusWord) : Bool :=
  0 < word % 128 && word % 128 < 127

def isStop (word : StatusWord) : Bool :=
  word % 256 = 127

/-- The exit code or the stop signal. -/
def upperByte (word : StatusWord) : Nat :=
  word / 256 % 256

def deathSignal (word : StatusWord) : Nat :=
  word % 128

end StatusWord

inductive Outcome where
  | exited (code : Nat)
  | signaled (signal : Nat)
  deriving DecidableEq, Repr

namespace Outcome

def success : Outcome → Bool
  | exited code => code = 0
  | signaled _ => false

def text : Outcome → String
  | exited code => s!"Exited({code})"
  | signaled signal => s!"Signaled({signal})"

end Outcome
end LineShell
