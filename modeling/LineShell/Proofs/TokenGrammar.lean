import LineShell.Tokens
import Mathlib.Data.List.Basic

/-!
# The grammar of a command line

A line is read as words with gaps around them. The grammar says nothing of splitting or of dropping
what is empty, and it still leaves each line a single reading: the one whose words are its tokens.
-/
namespace LineShell

/-- Nothing but delimiters, and possibly nothing at all. -/
def IsGap (bytes : Bytes) : Prop := ∀ b ∈ bytes, b ∈ delimiters

def IsWord (bytes : Bytes) : Prop := bytes ≠ [] ∧ ∀ b ∈ bytes, b ∉ delimiters

instance (bytes : Bytes) : Decidable (IsGap bytes) :=
  inferInstanceAs (Decidable (∀ b ∈ bytes, b ∈ delimiters))

instance (bytes : Bytes) : Decidable (IsWord bytes) :=
  inferInstanceAs (Decidable (bytes ≠ [] ∧ ∀ b ∈ bytes, b ∉ delimiters))

/-- A gap at the front, then words, each with the gap behind it. Only the gap behind the last word
may be empty, or two words would run together. -/
structure Reading (line lead : Bytes) (parts : List (Bytes × Bytes)) : Prop where
  lead_gap : IsGap lead
  word : ∀ p ∈ parts, IsWord p.1
  gap : ∀ p ∈ parts, IsGap p.2
  apart : ∀ p ∈ parts.dropLast, p.2 ≠ []
  whole : line = lead ++ parts.flatMap fun p => p.1 ++ p.2

def Reads (line : Bytes) (words : List Bytes) : Prop :=
  ∃ lead parts, Reading line lead parts ∧ parts.map Prod.fst = words

theorem IsGap.cons {b : UInt8} {gap : Bytes} (hb : b ∈ delimiters) (h : IsGap gap) :
    IsGap (b :: gap) := by
  simpa [IsGap] using And.intro hb h

theorem isDelimiter_eq_true {b : UInt8} : isDelimiter b = true ↔ b ∈ delimiters := by
  simp [isDelimiter]

theorem isDelimiter_eq_false {b : UInt8} : isDelimiter b = false ↔ b ∉ delimiters := by
  simp [isDelimiter]

theorem IsWord.not_delimiter {word : Bytes} (h : IsWord word) :
    ∀ b ∈ word, isDelimiter b = false :=
  fun b hb => isDelimiter_eq_false.mpr (h.2 b hb)

theorem tokens_gap_append {gap : Bytes} (h : IsGap gap) (rest : Bytes) :
    (tokenize (gap ++ rest)).tokens = (tokenize rest).tokens := by
  induction gap with
  | nil => rfl
  | cons b gap ih =>
    have hb := isDelimiter_eq_true.mpr (h b List.mem_cons_self)
    have hrest := ih fun c hc => h c (List.mem_cons_of_mem b hc)
    simpa [tokenize, TokenList.ofList, Bytes.splitWhere_cons_separator hb] using hrest

theorem tokens_word {word : Bytes} (h : IsWord word) : (tokenize word).tokens = [word] := by
  simp [tokenize, TokenList.ofList, Bytes.splitWhere_eq_singleton h.not_delimiter, h.1]

theorem tokens_word_append {word gap : Bytes} (hw : IsWord word) (hg : IsGap gap) (hne : gap ≠ [])
    (rest : Bytes) :
    (tokenize (word ++ (gap ++ rest))).tokens = word :: (tokenize rest).tokens := by
  cases gap with
  | nil => exact absurd rfl hne
  | cons b gap =>
    have hb := isDelimiter_eq_true.mpr (hg b List.mem_cons_self)
    have hrest := tokens_gap_append (fun c hc => hg c (List.mem_cons_of_mem b hc)) rest
    simp only [tokenize, TokenList.ofList] at hrest
    simp [tokenize, TokenList.ofList, Bytes.splitWhere_append_separator hw.not_delimiter hb, hw.1,
      hrest]

theorem tokens_parts {parts : List (Bytes × Bytes)} (hw : ∀ p ∈ parts, IsWord p.1)
    (hg : ∀ p ∈ parts, IsGap p.2) (ha : ∀ p ∈ parts.dropLast, p.2 ≠ []) :
    (tokenize (parts.flatMap fun p => p.1 ++ p.2)).tokens = parts.map Prod.fst := by
  induction parts with
  | nil => rfl
  | cons p parts ih =>
    have hpw := hw p List.mem_cons_self
    have hpg := hg p List.mem_cons_self
    have hrest := ih (fun q hq => hw q (List.mem_cons_of_mem p hq))
      (fun q hq => hg q (List.mem_cons_of_mem p hq))
      (fun q hq => ha q (by cases parts <;> simp_all))
    by_cases hp : p.2 = []
    · -- only the last word has nothing behind it
      have hlast : parts = [] := by
        cases parts with
        | nil => rfl
        | cons q parts => exact absurd hp (ha p (by simp))
      simpa [hlast, hp] using tokens_word hpw
    · rw [List.flatMap_cons, List.append_assoc, tokens_word_append hpw hpg hp, hrest, List.map_cons]

theorem Reading.tokens_eq {line lead : Bytes} {parts : List (Bytes × Bytes)}
    (h : Reading line lead parts) : (tokenize line).tokens = parts.map Prod.fst := by
  rw [h.whole, tokens_gap_append h.lead_gap]
  exact tokens_parts h.word h.gap h.apart

theorem Reading.nil : Reading [] [] [] := by
  constructor <;> simp [IsGap]

theorem Reading.widen_gap {line lead : Bytes} {parts : List (Bytes × Bytes)} {b : UInt8}
    (hb : b ∈ delimiters) (h : Reading line lead parts) :
    Reading (b :: line) (b :: lead) parts where
  lead_gap := h.lead_gap.cons hb
  word := h.word
  gap := h.gap
  apart := h.apart
  whole := by rw [h.whole, List.cons_append]

theorem Reading.lengthen_word {line : Bytes} {p : Bytes × Bytes} {parts : List (Bytes × Bytes)}
    {b : UInt8} (hb : b ∉ delimiters) (h : Reading line [] (p :: parts)) :
    Reading (b :: line) [] ((b :: p.1, p.2) :: parts) where
  lead_gap := h.lead_gap
  word := by
    have hp := h.word p List.mem_cons_self
    have hrest := fun q hq => h.word q (List.mem_cons_of_mem p hq)
    simpa [IsWord, hb] using And.intro hp.2 hrest
  gap := by simpa using h.gap
  apart := by
    cases parts with
    | nil => simp
    | cons q parts => simpa only [List.dropLast_cons_cons, List.forall_mem_cons] using h.apart
  whole := by simpa using h.whole

theorem Reading.begin_word {line lead : Bytes} {parts : List (Bytes × Bytes)} {b : UInt8}
    (hb : b ∉ delimiters) (h : Reading line lead parts) (hne : parts ≠ [] → lead ≠ []) :
    Reading (b :: line) [] (([b], lead) :: parts) where
  lead_gap := by simp [IsGap]
  word := by simpa [IsWord, hb] using h.word
  gap := by simpa using And.intro h.lead_gap h.gap
  apart := by
    cases parts with
    | nil => simp
    | cons q parts =>
      simpa only [List.dropLast_cons_cons, List.forall_mem_cons] using
        And.intro (hne (List.cons_ne_nil q parts)) h.apart
  whole := by simp [h.whole]

theorem reading_exists (line : Bytes) : ∃ lead parts, Reading line lead parts := by
  induction line with
  | nil => exact ⟨[], [], .nil⟩
  | cons b line ih =>
    obtain ⟨lead, parts, h⟩ := ih
    by_cases hb : b ∈ delimiters
    · exact ⟨b :: lead, parts, h.widen_gap hb⟩
    · by_cases hne : parts ≠ [] → lead ≠ []
      · exact ⟨[], ([b], lead) :: parts, h.begin_word hb hne⟩
      · push Not at hne
        obtain ⟨hparts, rfl⟩ := hne
        obtain ⟨p, parts, rfl⟩ := List.exists_cons_of_ne_nil hparts
        exact ⟨[], (b :: p.1, p.2) :: parts, h.lengthen_word hb⟩

theorem reads_iff_tokens {line : Bytes} {words : List Bytes} :
    Reads line words ↔ words = (tokenize line).tokens := by
  constructor
  · rintro ⟨lead, parts, h, rfl⟩
    exact h.tokens_eq.symm
  · rintro rfl
    obtain ⟨lead, parts, h⟩ := reading_exists line
    exact ⟨lead, parts, h, h.tokens_eq.symm⟩

theorem isWord_of_reads {line word : Bytes} {words : List Bytes} (h : Reads line words)
    (hw : word ∈ words) : IsWord word := by
  obtain ⟨lead, parts, hr, rfl⟩ := h
  obtain ⟨p, hp, rfl⟩ := List.mem_map.mp hw
  exact hr.word p hp

section
variable {line command argument : Bytes} {words : List Bytes}

theorem command_of_reads (h : Reads line (command :: words)) :
    (tokenize line).command? = some command :=
  TokenList.command?_eq_some_iff.mpr ⟨words, (reads_iff_tokens.mp h).symm⟩

theorem argument_of_reads (h : Reads line (command :: argument :: words)) :
    (tokenize line).get? 1 = some argument := by
  simp [TokenList.get?, ← reads_iff_tokens.mp h]

end

theorem reads_nil_iff_gap {line : Bytes} : Reads line [] ↔ IsGap line := by
  constructor
  · rintro ⟨lead, parts, h, hnil⟩
    have hparts := List.map_eq_nil_iff.mp hnil
    have hw := h.whole
    rw [hparts, List.flatMap_nil, List.append_nil] at hw
    exact hw ▸ h.lead_gap
  · intro h
    exact ⟨line, [], ⟨h, by simp, by simp, by simp, by simp⟩, rfl⟩

/-- The tokens are the words of the only reading that a line has. Nothing of the line is lost: the
reading puts it together again, byte for byte. -/
theorem tokens_are_the_only_reading (line : Bytes) :
    (∀ t ∈ (tokenize line).tokens, t ≠ [] ∧ ∀ b ∈ t, b ∉ delimiters) ∧
    (∀ words, Reads line words ↔ words = (tokenize line).tokens) ∧
    ((tokenize line).isEmpty = true ↔ ∀ b ∈ line, b ∈ delimiters) := by
  refine ⟨?_, fun words => reads_iff_tokens, ?_⟩
  · intro t ht
    exact isWord_of_reads (reads_iff_tokens.mpr rfl) ht
  · rw [TokenList.isEmpty, List.isEmpty_iff, eq_comm, ← reads_iff_tokens]
    exact reads_nil_iff_gap

/-- Vertical tab, form feed and NUL belong to words. -/
example : (tokenize [7, 97, 11, 98, 9, 32, 0, 12, 13, 10]).tokens = [[97, 11, 98], [0, 12]] := by
  decide

end LineShell
