import LineShell.Bytes

/-!
Interpreter lines. An executable file that begins with `#!` names on its first line the program that
is to run it, with at most one argument; only the first 256 bytes of the file are looked at, and a
shorter file is read as if NUL bytes followed it.
-/
namespace LineShell

structure Interpreter where
  /-- May be empty, which names no program. -/
  path : Bytes
  argument : Option Bytes
  deriving DecidableEq, Repr

namespace Interpreter

def hashBang : Bytes := Bytes.ofString "#!"

def reach : Nat := 256

def isSpace (b : UInt8) : Bool :=
  b = 32 || b = 9

def endsName (b : UInt8) : Bool :=
  isSpace b || b = 0

/-- The text is over at a NUL byte. -/
def untilNul (bytes : Bytes) : Bytes :=
  bytes.takeWhile (· != 0)

def trimEnd (bytes : Bytes) : Bytes :=
  (bytes.reverse.dropWhile isSpace).reverse

def body (data : Bytes) : Bytes :=
  ((data.take reach).rightpad reach 0).drop hashBang.length

/-- The text that names the interpreter, without the spaces after it. It is the first line if that
ends before any NUL byte. If not, it is all but the last byte in reach, and the end of the name must
be in reach as well, or the name may be cut short. -/
def text? (data : Bytes) : Option Bytes :=
  let body := body data
  let line := body.takeWhile fun b => b != Bytes.newline && b != 0
  if body[line.length]? = some Bytes.newline then some (trimEnd line)
  else if (body.dropWhile isSpace).any endsName then some (trimEnd body.dropLast)
  else none

def ofFile? (data : Bytes) : Option Interpreter := do
  guard (hashBang.isPrefixOf data)
  let named := (← text? data).dropWhile isSpace
  guard (!named.isEmpty)
  let path := named.takeWhile (!endsName ·)
  let rest := named.drop path.length
  pure ⟨path, if rest.head?.any isSpace then some (untilNul (rest.dropWhile isSpace)) else none⟩

end Interpreter
end LineShell
