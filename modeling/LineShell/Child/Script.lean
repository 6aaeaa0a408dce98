import LineShell.Variables

/-!
External programs as the shell meets them: what a program asks of the system, in order, until it
ends. Each answer may decide how it goes on, and every program ends.
-/
namespace LineShell

inductive Outlet where
  | output
  | diagnostics
  deriving DecidableEq, Repr

structure Signal where
  number : Nat
  pos : 0 < number := by decide
  le : number ≤ 64 := by decide
  deriving DecidableEq, Repr

inductive Script where
  | exit (code : UInt8)
  | die (signal : Signal) (coreDumped : Bool)
  /-- Stops, and goes on when it is resumed. -/
  | stop (signal : Signal) (next : Script)
  | write (outlet : Outlet) (bytes : Bytes) (next : Script)
  /-- Reads standard input to its end. -/
  | readInput (next : Bytes → Script)
  /-- Asks for the working directory, which may be gone. -/
  | askDirectory (next : Option Bytes → Script)
  | makeDirectory (path : Bytes) (next : Bool → Script)
  | removeDirectory (path : Bytes) (next : Bool → Script)
  | rename (source target : Bytes) (next : Bool → Script)

abbrev Program := List Bytes → Variables → Script

end LineShell
