import LineShell.Bytes

/-!
Reading bytes as UTF-8. A scalar value has one encoding, of one to four bytes: the second byte's
range depends on the first, which rules out overlong forms, surrogates and values past U+10FFFF.
-/
namespace LineShell.Utf8

def isContinuation (b : UInt8) : Bool :=
  0x80 ≤ b && b ≤ 0xBF

/-- The bytes that may follow a lead byte of a two-, three- or four-byte form. -/
def mayFollow (lead second : UInt8) : Bool :=
  if lead = 0xE0 then 0xA0 ≤ second && second ≤ 0xBF
  else if lead = 0xED then 0x80 ≤ second && second ≤ 0x9F
  else if lead = 0xF0 then 0x90 ≤ second && second ≤ 0xBF
  else if lead = 0xF4 then 0x80 ≤ second && second ≤ 0x8F
  else isContinuation second

/-- How many bytes a lead byte announces; 0 for a byte that begins no form. -/
def announcedLength (lead : UInt8) : Nat :=
  if lead < 0x80 then 1
  else if 0xC2 ≤ lead && lead ≤ 0xDF then 2
  else if 0xE0 ≤ lead && lead ≤ 0xEF then 3
  else if 0xF0 ≤ lead && lead ≤ 0xF4 then 4
  else 0

def payload (b : UInt8) : Nat :=
  b.toNat % 64

def pair (a b : UInt8) : Char :=
  Char.ofNat (a.toNat % 32 * 64 + payload b)

def triple (a b c : UInt8) : Char :=
  Char.ofNat (a.toNat % 16 * 4096 + payload b * 64 + payload c)

def quadruple (a b c d : UInt8) : Char :=
  Char.ofNat (a.toNat % 8 * 262144 + payload b * 4096 + payload c * 64 + payload d)

/-- One character, or `none` for a longest stretch that begins a form and breaks off; a byte that
begins no form is such a stretch by itself. -/
abbrev Piece := Option Char

def readInto (done : List Piece) : Bytes → List Piece
  | [] => done
  | a :: rest =>
    match announcedLength a with
    | 1 => readInto (some (Char.ofNat a.toNat) :: done) rest
    | 2 =>
      match rest with
      | [] => none :: done
      | b :: rest' =>
        if mayFollow a b then readInto (some (pair a b) :: done) rest'
        else readInto (none :: done) (b :: rest')
    | 3 =>
      match rest with
      | [] => none :: done
      | b :: rest' =>
        if mayFollow a b then
          match rest' with
          | [] => none :: done
          | c :: rest'' =>
            if isContinuation c then readInto (some (triple a b c) :: done) rest''
            else readInto (none :: done) (c :: rest'')
        else readInto (none :: done) (b :: rest')
    | 4 =>
      match rest with
      | [] => none :: done
      | b :: rest' =>
        if mayFollow a b then
          match rest' with
          | [] => none :: done
          | c :: rest'' =>
            if isContinuation c then
              match rest'' with
              | [] => none :: done
              | d :: rest''' =>
                if isContinuation d then readInto (some (quadruple a b c d) :: done) rest'''
                else readInto (none :: done) (d :: rest''')
            else readInto (none :: done) (c :: rest'')
        else readInto (none :: done) (b :: rest')
    | _ => readInto (none :: done) rest

def pieces (bytes : Bytes) : List Piece :=
  (readInto [] bytes).reverse

/-- Stands in shown text for bytes that cannot be read. -/
def replacement : Char := '\uFFFD'

def lossy (bytes : Bytes) : String :=
  String.ofList ((pieces bytes).map (·.getD replacement))

def decode? (bytes : Bytes) : Option String :=
  let found := pieces bytes
  if found.all Option.isSome then some (String.ofList (found.filterMap id)) else none

end LineShell.Utf8
