/-!
Byte strings. Lines, tokens, variables and paths are bytes that need not be valid text; the shell's
own words enter them through their UTF-8 encoding.
-/
namespace LineShell

abbrev Bytes := List UInt8

namespace Bytes

def newline : UInt8 := 10

def equals : UInt8 := 61

def slash : UInt8 := 47

def colon : UInt8 := 58

def ofString (text : String) : Bytes :=
  text.toList.flatMap String.utf8EncodeChar

def hasNul (bytes : Bytes) : Bool :=
  bytes.contains 0

/-- What is left of the bytes once the given head is taken off, if they begin with it. -/
def after? : Bytes → Bytes → Option Bytes
  | [], bytes => some bytes
  | _ :: _, [] => none
  | h :: head, b :: bytes => if h = b then after? head bytes else none

/-- The stretches between separators, empty ones included: one more than there are separators. -/
def splitWhere (separates : UInt8 → Bool) (bytes : Bytes) : List Bytes :=
  let parts := bytes.foldr
    (fun b (first, rest) => if separates b then ([], first :: rest) else (b :: first, rest))
    (([], []) : Bytes × List Bytes)
  parts.1 :: parts.2

@[simp] theorem ofString_empty : ofString "" = [] := by decide

theorem ofString_append (s t : String) : ofString (s ++ t) = ofString s ++ ofString t := by
  simp [ofString, String.toList_append]

@[simp] theorem after?_nil (bytes : Bytes) : after? [] bytes = some bytes := by
  cases bytes <;> rfl

theorem after?_eq_some_iff {head bytes rest : Bytes} :
    after? head bytes = some rest ↔ bytes = head ++ rest := by
  induction head generalizing bytes with
  | nil => simp [eq_comm]
  | cons h head ih =>
    cases bytes with
    | nil => simp [after?]
    | cons b bytes =>
      by_cases hb : h = b
      · subst hb; simp [after?, ih]
      · simp [after?, hb, Ne.symm hb]

@[simp] theorem splitWhere_nil (separates : UInt8 → Bool) : splitWhere separates [] = [[]] := rfl

theorem splitWhere_cons_separator {separates : UInt8 → Bool} {b : UInt8} (h : separates b = true)
    (bytes : Bytes) : splitWhere separates (b :: bytes) = [] :: splitWhere separates bytes := by
  simp [splitWhere, h]

theorem splitWhere_cons_of_eq_cons {separates : UInt8 → Bool} {b : UInt8} {bytes first : Bytes}
    {others : List Bytes} (h : separates b = false)
    (hs : splitWhere separates bytes = first :: others) :
    splitWhere separates (b :: bytes) = (b :: first) :: others := by
  simp only [splitWhere, List.cons.injEq] at hs
  simp [splitWhere, h, hs.1, hs.2]

theorem splitWhere_eq_singleton {separates : UInt8 → Bool} {bytes : Bytes}
    (h : ∀ b ∈ bytes, separates b = false) : splitWhere separates bytes = [bytes] := by
  induction bytes with
  | nil => rfl
  | cons b bytes ih =>
    exact splitWhere_cons_of_eq_cons (h b List.mem_cons_self)
      (ih fun c hc => h c (List.mem_cons_of_mem b hc))

theorem splitWhere_append_separator {separates : UInt8 → Bool} {stretch : Bytes} {b : UInt8}
    (h : ∀ c ∈ stretch, separates c = false) (hb : separates b = true) (bytes : Bytes) :
    splitWhere separates (stretch ++ b :: bytes) = stretch :: splitWhere separates bytes := by
  induction stretch with
  | nil => exact splitWhere_cons_separator hb bytes
  | cons c stretch ih =>
    exact splitWhere_cons_of_eq_cons (h c List.mem_cons_self)
      (ih fun d hd => h d (List.mem_cons_of_mem c hd))

end Bytes
end LineShell
