import LineShell.Proofs.LineTokens
import LineShell.Proofs.TokenGrammar

/-!
# Words joined and read again

A token list comes from a line or from words that are collected. Both drop what is empty, the one
where it splits and the other where it collects. Of an empty word between two gaps a line keeps
nothing: the gaps run together. So both ways lead to the same list, and from a list that can be
written in a line, and from no other, there is a way back to itself.
-/
namespace LineShell

def IsStretch (bytes : Bytes) : Prop := ∀ b ∈ bytes, b ∉ delimiters

instance (bytes : Bytes) : Decidable (IsStretch bytes) :=
  inferInstanceAs (Decidable (∀ b ∈ bytes, b ∉ delimiters))

/-- The line of these words, with a gap in front of all and one behind each. -/
def joined (lead : Bytes) (parts : List (Bytes × Bytes)) : Bytes :=
  lead ++ parts.flatMap fun p => p.1 ++ p.2

/-- Gaps that keep words apart: only the first one and the last one may be empty. -/
structure KeepsApart (lead : Bytes) (parts : List (Bytes × Bytes)) : Prop where
  lead_gap : IsGap lead
  gap : ∀ p ∈ parts, IsGap p.2
  apart : ∀ p ∈ parts.dropLast, p.2 ≠ []

/-- What is left of the words without the empty ones, in the same order and as often. -/
structure Sifts (words kept : List Bytes) : Prop where
  order : kept.Sublist words
  nonempty : [] ∉ kept
  whole : ∀ word, word ≠ [] → kept.count word = words.count word

theorem sifts_iff {words kept : List Bytes} :
    Sifts words kept ↔ kept = (TokenList.ofList words).tokens := by
  have hfilter : (TokenList.ofList words).tokens = words.filter (!·.isEmpty) := rfl
  have hcount (word : Bytes) (hne : word ≠ []) :
      (words.filter (!·.isEmpty)).count word = words.count word :=
    List.count_filter (by simpa using hne)
  rw [hfilter]
  constructor
  · intro h
    have hkept : kept.filter (!·.isEmpty) = kept := by
      rw [List.filter_eq_self]
      rintro word hword
      have hne : word ≠ [] := fun hnil => h.nonempty (hnil ▸ hword)
      simpa using hne
    have hsub : kept.Sublist (words.filter (!·.isEmpty)) := hkept ▸ h.order.filter _
    have hperm : kept.Perm (words.filter (!·.isEmpty)) := by
      rw [List.perm_iff_count]
      intro word
      by_cases hne : word = []
      · have hnil : [] ∉ words.filter (!·.isEmpty) := by simp
        rw [hne, List.count_eq_zero_of_not_mem h.nonempty, List.count_eq_zero_of_not_mem hnil]
      · rw [h.whole word hne, hcount word hne]
    exact hsub.eq_of_length hperm.length_eq
  · rintro rfl
    exact ⟨List.filter_sublist, by simp, hcount⟩

theorem tokens_stretch {stretch : Bytes} (h : IsStretch stretch) :
    (tokenize stretch).tokens = [stretch].filter (!·.isEmpty) := by
  have hsplit : stretch.splitWhere isDelimiter = [stretch] :=
    Bytes.splitWhere_eq_singleton fun b hb => isDelimiter_eq_false.mpr (h b hb)
  simp only [tokenize, TokenList.ofList, hsplit]

theorem tokens_stretch_append {stretch gap : Bytes} (h : IsStretch stretch) (hg : IsGap gap)
    (hne : gap ≠ []) (rest : Bytes) :
    (tokenize (stretch ++ (gap ++ rest))).tokens =
      [stretch].filter (!·.isEmpty) ++ (tokenize rest).tokens := by
  cases gap with
  | nil => exact absurd rfl hne
  | cons b gap =>
    obtain ⟨hb, hgap⟩ := List.forall_mem_cons.mp hg
    rw [List.cons_append, tokens_append (isDelimiter_eq_true.mpr hb), tokens_stretch h,
      tokens_gap_append hgap]

theorem tokens_joined {lead : Bytes} {parts : List (Bytes × Bytes)} (h : KeepsApart lead parts)
    (hs : ∀ p ∈ parts, IsStretch p.1) :
    (tokenize (joined lead parts)).tokens = (parts.map Prod.fst).filter (!·.isEmpty) := by
  obtain ⟨hlead, hgap, hapart⟩ := h
  rw [joined, tokens_gap_append hlead]
  induction parts with
  | nil => rfl
  | cons p parts ih =>
    obtain ⟨hp, hs⟩ := List.forall_mem_cons.mp hs
    obtain ⟨hpgap, hgap⟩ := List.forall_mem_cons.mp hgap
    by_cases hlast : p.2 = []
    · -- only the last word has nothing behind it
      have hnil : parts = [] := by
        cases parts with
        | nil => rfl
        | cons q parts => exact absurd hlast (hapart p (by simp))
      simpa [hnil, hlast] using tokens_stretch hp
    · have hlater := ih hs hgap fun q hq => hapart q (by cases parts <;> simp_all)
      rw [List.flatMap_cons, List.append_assoc, tokens_stretch_append hp hpgap hlast, hlater,
        ← List.filter_append]
      rfl

namespace TokenList

theorem ext_tokens {list other : TokenList} (h : list.tokens = other.tokens) : list = other := by
  cases list
  cases other
  cases h
  rfl

theorem ofList_tokens (list : TokenList) : ofList list.tokens = list := by
  apply ext_tokens
  rw [ofList, List.filter_eq_self]
  intro t ht
  simpa using list.tokens_nonempty t ht

end TokenList

theorem tokenize_joined {lead : Bytes} {parts : List (Bytes × Bytes)} (h : KeepsApart lead parts)
    (hs : ∀ p ∈ parts, IsStretch p.1) :
    tokenize (joined lead parts) = TokenList.ofList (parts.map Prod.fst) :=
  TokenList.ext_tokens (tokens_joined h hs)

theorem tokens_isStretch (line : Bytes) : ∀ t ∈ (tokenize line).tokens, IsStretch t :=
  fun _ ht => (isWord_of_reads (reads_iff_tokens.mpr rfl) ht).2

theorem tokenize_rejoined_iff {lead : Bytes} {parts : List (Bytes × Bytes)} {list : TokenList}
    (h : KeepsApart lead parts) (hlist : parts.map Prod.fst = list.tokens) :
    tokenize (joined lead parts) = list ↔ ∀ t ∈ list.tokens, IsStretch t := by
  constructor
  · rintro rfl
    exact tokens_isStretch _
  · intro hs
    have hparts : ∀ p ∈ parts, IsStretch p.1 := fun p hp =>
      hs p.1 (hlist ▸ List.mem_map_of_mem hp)
    rw [tokenize_joined h hparts, hlist, list.ofList_tokens]

/-- A line of words with gaps between them is read as the list that collects these words: the words
without the empty ones, in their order and as often as they come. No token of either is empty. A
list that is collected again is the same list, and so is one that is written in a line and read
again, if its tokens are free of delimiters, as those of a line always are. -/
theorem joined_words_are_collected :
    (∀ lead parts, KeepsApart lead parts → (∀ p ∈ parts, IsStretch p.1) →
      tokenize (joined lead parts) = TokenList.ofList (parts.map Prod.fst)) ∧
    (∀ words kept, Sifts words kept ↔ kept = (TokenList.ofList words).tokens) ∧
    (∀ line, ∀ t ∈ (tokenize line).tokens, t ≠ [] ∧ IsStretch t) ∧
    (∀ list : TokenList, TokenList.ofList list.tokens = list) ∧
    ∀ (list : TokenList) lead parts, KeepsApart lead parts → parts.map Prod.fst = list.tokens →
      (tokenize (joined lead parts) = list ↔ ∀ t ∈ list.tokens, IsStretch t) := by
  refine ⟨?_, ?_, ?_, ?_, ?_⟩
  · intro lead parts h hs
    exact tokenize_joined h hs
  · intro words kept
    exact sifts_iff
  · intro line t ht
    exact ⟨(tokenize line).tokens_nonempty t ht, tokens_isStretch line t ht⟩
  · intro list
    exact list.ofList_tokens
  · intro list lead parts h hlist
    exact tokenize_rejoined_iff h hlist

/-- Empty words first, last and next to each other, a word that comes twice, gaps of several bytes,
and no gap at the end. Written again with other gaps, the tokens are read as before. -/
theorem joined_words_with_empty_ones_are_collected :
    let parts : List (Bytes × Bytes) :=
      [([], [9]), ([97], [10, 7]), ([], [32]), ([], [13, 13]), ([11, 255], [32]), ([97], [7]),
        ([], [])]
    let again : List (Bytes × Bytes) := [([97], [7]), ([11, 255], [9, 32]), ([97], [10])]
    (KeepsApart [32] parts ∧ ∀ p ∈ parts, IsStretch p.1) ∧
    tokenize (joined [32] parts) = TokenList.ofList (parts.map Prod.fst) ∧
    (TokenList.ofList (parts.map Prod.fst)).tokens = [[97], [11, 255], [97]] ∧
    KeepsApart [] again ∧ tokenize (joined [] again) = tokenize (joined [32] parts) := by
  intro parts again
  have hparts : KeepsApart [32] parts := ⟨by decide +kernel, by decide +kernel, by decide +kernel⟩
  have hstretches : ∀ p ∈ parts, IsStretch p.1 := by decide +kernel
  have hagain : KeepsApart [] again := ⟨by decide +kernel, by decide +kernel, by decide +kernel⟩
  obtain ⟨hjoined, _, hwords, _, hrejoined⟩ := joined_words_are_collected
  have hread := hjoined [32] parts hparts hstretches
  have htokens : (TokenList.ofList (parts.map Prod.fst)).tokens = [[97], [11, 255], [97]] := by
    decide
  have hlist : again.map Prod.fst = (tokenize (joined [32] parts)).tokens := by
    rw [hread, htokens]
    rfl
  refine ⟨⟨hparts, hstretches⟩, hread, htokens, hagain, ?_⟩
  exact (hrejoined _ _ _ hagain hlist).mpr fun t ht => (hwords _ t ht).2

end LineShell
