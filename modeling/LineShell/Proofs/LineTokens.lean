import LineShell.Tokens
import LineShell.Proofs.InputLines

/-!
# Tokens of the lines and of the whole input

The newline that ends a line is a delimiter and stays with the line. So no token crosses from one
line into the next, and none is made where a line is cut: the tokens of the lines, one line after
another, are the tokens of the input as a whole.
-/
namespace LineShell

open Bytes (lines newline EndsInNewline)

section
variable {separates : UInt8 → Bool} {b : UInt8}

theorem splitWhere_append (hb : separates b = true) (front back : Bytes) :
    Bytes.splitWhere separates (front ++ b :: back) =
      Bytes.splitWhere separates front ++ Bytes.splitWhere separates back := by
  induction front with
  | nil => exact Bytes.splitWhere_cons_separator hb back
  | cons c front ih =>
    by_cases hc : separates c = true
    · rw [List.cons_append, Bytes.splitWhere_cons_separator hc, ih,
        Bytes.splitWhere_cons_separator hc, List.cons_append]
    · -- the byte joins the first stretch, which both sides have in common
      obtain ⟨first, others, hfront⟩ : ∃ first others,
          Bytes.splitWhere separates front = first :: others := ⟨_, _, rfl⟩
      have hfree : separates c = false := eq_false_of_ne_true hc
      rw [hfront, List.cons_append] at ih
      rw [List.cons_append, Bytes.splitWhere_cons_of_eq_cons hfree ih,
        Bytes.splitWhere_cons_of_eq_cons hfree hfront, List.cons_append]

theorem tokens_append (hb : isDelimiter b = true) (front back : Bytes) :
    (tokenize (front ++ b :: back)).tokens = (tokenize front).tokens ++ (tokenize back).tokens := by
  simp only [tokenize, TokenList.ofList]
  rw [splitWhere_append hb, List.filter_append]

end

theorem tokens_line_append {line : Bytes} (h : EndsInNewline line) (rest : Bytes) :
    (tokenize (line ++ rest)).tokens = (tokenize line).tokens ++ (tokenize rest).tokens := by
  have hnewline : isDelimiter newline = true := by decide
  obtain ⟨front, rfl⟩ := List.getLast?_eq_some_iff.mp h
  have hline : (tokenize (front ++ [newline])).tokens = (tokenize front).tokens ++ [] :=
    tokens_append hnewline front []
  rw [List.append_assoc, List.singleton_append, tokens_append hnewline, hline, List.append_nil]

theorem tokens_lines (data : Bytes) :
    ((lines data).flatMap fun line => (tokenize line).tokens) = (tokenize data).tokens := by
  induction hn : data.length using Nat.strongRecOn generalizing data with
  | ind n ih =>
    cases h : cutLine? data with
    | none =>
      rw [lines_of_uncut h]
      cases data with
      | nil => rfl
      | cons b rest => exact List.flatMap_singleton _ (b :: rest)
    | some cut =>
      obtain ⟨line, left⟩ := cut
      have hleft := ih _ (hn ▸ length_lt_of_cut h) left rfl
      rw [lines_of_cut h, List.flatMap_cons, hleft, ← append_of_cutLine? h]
      exact (tokens_line_append (cutLine?_endsInNewline h) left).symm

theorem flatten_lines (data : Bytes) : (lines data).flatten = data := by
  induction hn : data.length using Nat.strongRecOn generalizing data with
  | ind n ih =>
    cases h : cutLine? data with
    | none =>
      rw [lines_of_uncut h]
      cases data <;> simp
    | some cut =>
      obtain ⟨line, left⟩ := cut
      rw [lines_of_cut h, List.flatten_cons, ih _ (hn ▸ length_lt_of_cut h) left rfl,
        append_of_cutLine? h]

namespace Source

/-- The lines that calls bring one after another until one brings the end. -/
inductive Brings : Source → List Bytes → Prop where
  | ended {source : Source} (h : source.readLine.1 = .ok none) : Brings source []
  | line {source : Source} {line : Bytes} {later : List Bytes}
      (h : source.readLine.1 = .ok (some line)) (hlater : Brings source.readLine.2 later) :
      Brings source (line :: later)

theorem Brings.unique {source : Source} {brought other : List Bytes} (h : source.Brings brought)
    (h' : source.Brings other) : brought = other := by
  induction h generalizing other with
  | ended hend =>
    cases h' with
    | ended _ => rfl
    | line hline _ => rw [hend] at hline; cases hline
  | line hline _ ih =>
    cases h' with
    | ended hend => rw [hend] at hline; cases hline
    | line hline' hlater =>
      rw [hline] at hline'
      cases hline'
      rw [ih hlater]

theorem brings_nil : Brings [] [] := .ended rfl

theorem brings_lines {source : Source} (hs : NeverFails source) :
    source.Brings (lines source.contents) := by
  induction hn : source.contents.length using Nat.strongRecOn generalizing source with
  | ind n ih =>
    cases h : cutLine? source.contents with
    | some cut =>
      obtain ⟨line, left⟩ := cut
      obtain ⟨rest, hrest, rfl, hread⟩ := readLine_of_cut hs h []
      rw [List.append_nil, List.append_nil] at hread
      have hlater := ih _ (hn ▸ length_lt_of_cut h) hrest rfl
      rw [lines_of_cut h]
      apply Brings.line
      · rw [hread]
      · rw [hread]
        exact hlater
    | none =>
      have hread := readLine_of_uncut hs h
      rw [lines_of_uncut h]
      cases hc : source.contents with
      | nil =>
        apply Brings.ended
        rw [hread, hc]
        rfl
      | cons b rest =>
        -- the last line has no newline; the call behind it brings the end
        apply Brings.line
        · rw [hread, hc]
          rfl
        · rw [hread]
          exact brings_nil

end Source

/-- Reading a source that does not fail comes to its end, and however the source cuts its bytes into
fills, the lines brought by then have the tokens of all the bytes, in order. -/
theorem lines_have_the_tokens_of_the_whole {source : Source} (hs : source.NeverFails) :
    ∃ brought, source.Brings brought ∧ (∀ other, source.Brings other → other = brought) ∧
      brought.flatten = source.contents ∧
      (brought.flatMap fun line => (tokenize line).tokens) =
        (tokenize source.contents).tokens := by
  have h := Source.brings_lines hs
  refine ⟨lines source.contents, h, ?_, ?_, ?_⟩
  · intro other hother
    exact hother.unique h
  · exact flatten_lines source.contents
  · exact tokens_lines source.contents

/-- A carriage return in front of a newline, empty lines, a fill that ends inside a token and one
that ends behind a carriage return, an interruption, and a last line without its newline. -/
theorem lines_of_fills_have_the_tokens :
    let source : Source :=
      [.bytes 97 [13, 10, 10, 98], .interrupted, .bytes 99 [32, 100, 13], .bytes 10 [13, 10, 101]]
    source.NeverFails ∧
    ∃ brought, source.Brings brought ∧
      (brought.flatMap fun line => (tokenize line).tokens) = [[97], [98, 99], [100], [101]] := by
  intro source
  have hs : source.NeverFails := by simp [Source.NeverFails, source]
  obtain ⟨brought, hbrought, _, _, htokens⟩ := lines_have_the_tokens_of_the_whole hs
  refine ⟨hs, brought, hbrought, ?_⟩
  rw [htokens]
  decide

end LineShell
