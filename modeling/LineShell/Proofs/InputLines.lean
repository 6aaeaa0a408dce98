import LineShell.Source
import Mathlib.Data.List.Basic

/-!
# Lines of the input

Where the input is cut into lines is a matter of its bytes alone. Reading line by line brings these
lines, however the bytes arrive, up to the first request that fails; a line that has no newline by
then is not brought at all.
-/
namespace LineShell
namespace Bytes

/-- The bytes cut after every newline. What follows the last newline is a line as well, unless
nothing does. -/
def lines : Bytes → List Bytes
  | [] => []
  | b :: rest =>
    if b = newline then [b] :: lines rest
    else
      match lines rest with
      | [] => [[b]]
      | line :: later => (b :: line) :: later

def EndsInNewline (line : Bytes) : Prop := line.getLast? = some newline

instance (line : Bytes) : Decidable (EndsInNewline line) :=
  inferInstanceAs (Decidable (_ = _))

/-- Of lines that follow one another, those whose newline lies before an offset. -/
def endedBefore : Nat → List Bytes → List Bytes
  | _, [] => []
  | offset, line :: later =>
    if line.length ≤ offset ∧ EndsInNewline line then
      line :: endedBefore (offset - line.length) later
    else []

/-- The lines that have a newline: all but perhaps the last. -/
def wholeLines (data : Bytes) : List Bytes :=
  (lines data).filter (EndsInNewline ·)

end Bytes

open Bytes (lines newline endedBefore wholeLines EndsInNewline)

@[simp] theorem cutLine?_nil : cutLine? [] = none := rfl

@[simp] theorem cutLine?_newline (rest : Bytes) :
    cutLine? (newline :: rest) = some ([newline], rest) := by
  simp [cutLine?]

theorem cutLine?_cons {b : UInt8} (hb : b ≠ newline) (rest : Bytes) :
    cutLine? (b :: rest) = (cutLine? rest).map fun cut => (b :: cut.1, cut.2) := by
  unfold cutLine?
  rw [List.dropWhile_cons_of_pos (by simpa using hb),
    List.takeWhile_cons_of_pos (by simpa using hb)]
  cases rest.dropWhile (· != newline) <;> rfl

theorem cutLine?_cons_eq_some {b : UInt8} (hb : b ≠ newline) {rest line left : Bytes} :
    cutLine? (b :: rest) = some (line, left) ↔
      ∃ more, cutLine? rest = some (more, left) ∧ line = b :: more := by
  rw [cutLine?_cons hb, Option.map_eq_some_iff]
  constructor
  · rintro ⟨⟨more, left'⟩, hcut, heq⟩
    obtain ⟨rfl, rfl⟩ := Prod.mk.inj heq
    exact ⟨more, hcut, rfl⟩
  · rintro ⟨more, hcut, rfl⟩
    exact ⟨(more, left), hcut, rfl⟩

theorem cutLine?_cons_eq_none {b : UInt8} (hb : b ≠ newline) {rest : Bytes} :
    cutLine? (b :: rest) = none ↔ cutLine? rest = none := by
  simp [cutLine?_cons hb]

theorem cutLine?_append_of_some {data line left : Bytes} (h : cutLine? data = some (line, left))
    (more : Bytes) : cutLine? (data ++ more) = some (line, left ++ more) := by
  induction data generalizing line with
  | nil => simp at h
  | cons b data ih =>
    by_cases hb : b = newline
    · subst hb
      simp only [cutLine?_newline, Option.some.injEq, Prod.mk.injEq] at h
      obtain ⟨rfl, rfl⟩ := h
      simp
    · obtain ⟨rest, hrest, rfl⟩ := (cutLine?_cons_eq_some hb).mp h
      exact (cutLine?_cons_eq_some hb).mpr ⟨rest, ih hrest, rfl⟩

theorem cutLine?_append_of_none {data : Bytes} (h : cutLine? data = none) (more : Bytes) :
    cutLine? (data ++ more) = (cutLine? more).map fun cut => (data ++ cut.1, cut.2) := by
  induction data with
  | nil => simp
  | cons b data ih =>
    by_cases hb : b = newline
    · simp [hb] at h
    · rw [List.cons_append, cutLine?_cons hb, ih ((cutLine?_cons_eq_none hb).mp h), Option.map_map]
      rfl

theorem cutLine?_endsInNewline {data line left : Bytes} (h : cutLine? data = some (line, left)) :
    EndsInNewline line := by
  induction data generalizing line with
  | nil => simp at h
  | cons b data ih =>
    by_cases hb : b = newline
    · subst hb
      simp only [cutLine?_newline, Option.some.injEq, Prod.mk.injEq] at h
      simp [EndsInNewline, ← h.1]
    · obtain ⟨rest, hrest, rfl⟩ := (cutLine?_cons_eq_some hb).mp h
      have hlast := ih hrest
      unfold EndsInNewline at hlast ⊢
      rw [List.getLast?_cons, hlast, Option.getD_some]

theorem newline_notMem_of_uncut {data : Bytes} (h : cutLine? data = none) : newline ∉ data := by
  induction data with
  | nil => simp
  | cons b data ih =>
    by_cases hb : b = newline
    · simp [hb] at h
    · simpa [Ne.symm hb] using ih ((cutLine?_cons_eq_none hb).mp h)

theorem lines_of_cut {data line left : Bytes} (h : cutLine? data = some (line, left)) :
    lines data = line :: lines left := by
  induction data generalizing line with
  | nil => simp at h
  | cons b data ih =>
    by_cases hb : b = newline
    · subst hb
      simp only [cutLine?_newline, Option.some.injEq, Prod.mk.injEq] at h
      simp [lines, ← h.1, ← h.2]
    · obtain ⟨rest, hrest, rfl⟩ := (cutLine?_cons_eq_some hb).mp h
      simp [lines, hb, ih hrest]

theorem lines_of_uncut {data : Bytes} (h : cutLine? data = none) :
    lines data = if data.isEmpty then [] else [data] := by
  induction data with
  | nil => rfl
  | cons b data ih =>
    by_cases hb : b = newline
    · simp [hb] at h
    · have hrest := ih ((cutLine?_cons_eq_none hb).mp h)
      cases data <;> simp_all [lines]

theorem endsInNewline_mem {line : Bytes} (h : EndsInNewline line) : newline ∈ line :=
  List.mem_of_getLast? h

theorem wholeLines_of_cut {data line left : Bytes} (h : cutLine? data = some (line, left)) :
    wholeLines data = line :: wholeLines left := by
  simp [wholeLines, lines_of_cut h, cutLine?_endsInNewline h]

theorem wholeLines_of_uncut {data : Bytes} (h : cutLine? data = none) : wholeLines data = [] := by
  have hdata : ¬ EndsInNewline data := fun he => newline_notMem_of_uncut h (endsInNewline_mem he)
  rw [wholeLines, lines_of_uncut h]
  split <;> simp [hdata]

theorem length_lt_of_cut {data line left : Bytes} (h : cutLine? data = some (line, left)) :
    left.length < data.length := by
  have hlen := congrArg List.length (append_of_cutLine? h)
  have hpos := List.length_pos_of_ne_nil (cutLine?_line_ne_nil h)
  simp only [List.length_append] at hlen
  omega

theorem cutLine?_line {data line left : Bytes} (h : cutLine? data = some (line, left)) :
    cutLine? line = some (line, []) := by
  induction data generalizing line with
  | nil => simp at h
  | cons b data ih =>
    by_cases hb : b = newline
    · subst hb
      simp only [cutLine?_newline, Option.some.injEq, Prod.mk.injEq] at h
      simp [← h.1]
    · obtain ⟨rest, hrest, rfl⟩ := (cutLine?_cons_eq_some hb).mp h
      exact (cutLine?_cons_eq_some hb).mpr ⟨rest, ih hrest, rfl⟩

theorem uncut_take {data : Bytes} {offset : Nat}
    (h : ∀ line left, cutLine? data = some (line, left) → offset < line.length) :
    cutLine? (data.take offset) = none := by
  cases ht : cutLine? (data.take offset) with
  | none => rfl
  | some cut =>
    have hall := cutLine?_append_of_some ht (data.drop offset)
    rw [List.take_append_drop] at hall
    have hlong := h _ _ hall
    have hlen := congrArg List.length (append_of_cutLine? ht)
    simp only [List.length_append, List.length_take] at hlen
    omega

theorem endedBefore_lines (offset : Nat) (data : Bytes) :
    endedBefore offset (lines data) = wholeLines (data.take offset) := by
  induction hn : data.length using Nat.strongRecOn generalizing offset data with
  | ind n ih =>
    cases h : cutLine? data with
    | none =>
      have hdata : ¬ EndsInNewline data :=
        fun he => newline_notMem_of_uncut h (endsInNewline_mem he)
      rw [wholeLines_of_uncut (uncut_take (by simp [h])), lines_of_uncut h]
      split <;> simp [endedBefore, hdata]
    | some cut =>
      obtain ⟨line, left⟩ := cut
      rw [lines_of_cut h]
      by_cases hle : line.length ≤ offset
      · have htake : data.take offset = line ++ left.take (offset - line.length) := by
          rw [← append_of_cutLine? h, List.take_append, List.take_of_length_le hle]
        have hcut := cutLine?_append_of_some (cutLine?_line h) (left.take (offset - line.length))
        rw [htake, wholeLines_of_cut hcut, List.nil_append,
          ← ih _ (hn ▸ length_lt_of_cut h) _ _ rfl]
        simp [endedBefore, hle, cutLine?_endsInNewline h]
      · have hshort : ∀ line' left',
            cutLine? data = some (line', left') → offset < line'.length := by
          intro line' left' h'
          rw [h, Option.some.injEq, Prod.mk.injEq] at h'
          rw [← h'.1]
          omega
        simp [wholeLines_of_uncut (uncut_take hshort), endedBefore, hle]

namespace Source

def contents (source : Source) : Bytes :=
  source.flatMap fun
    | .bytes first rest => first :: rest
    | _ => []

def NeverFails (source : Source) : Prop := ∀ fault, Fill.failed fault ∉ source

theorem neverFails_nil : NeverFails [] := by simp [NeverFails]

theorem NeverFails.tail {fill : Fill} {source : Source} (h : NeverFails (fill :: source)) :
    NeverFails source :=
  fun fault hf => h fault (List.mem_cons_of_mem fill hf)

theorem NeverFails.unread {source : Source} (h : NeverFails source) (bytes : Bytes) :
    NeverFails (unread bytes source) := by
  cases bytes with
  | nil => exact h
  | cons b rest => simpa [NeverFails, Source.unread] using h

theorem contents_unread (bytes : Bytes) (source : Source) :
    contents (unread bytes source) = bytes ++ contents source := by
  cases bytes <;> simp [unread, contents]

theorem unread_append (bytes : Bytes) (source later : Source) :
    unread bytes (source ++ later) = unread bytes source ++ later := by
  cases bytes <;> rfl

/-- A line that ends before the source fails is read whole, whatever comes later. -/
theorem readThrough_of_cut {source : Source} (hs : NeverFails source) {line left : Bytes}
    (h : cutLine? source.contents = some (line, left)) (later : Source) :
    ∃ rest, NeverFails rest ∧ contents rest = left ∧
      readThrough (source ++ later) = (.ok line, rest ++ later) := by
  induction source generalizing line with
  | nil => simp [contents] at h
  | cons fill source ih =>
    cases fill with
    | interrupted => exact ih hs.tail h
    | failed fault => exact absurd List.mem_cons_self (hs fault)
    | bytes b bytes =>
      change cutLine? ((b :: bytes) ++ contents source) = _ at h
      cases hc : cutLine? (b :: bytes) with
      | some cut =>
        obtain ⟨line', left'⟩ := cut
        rw [cutLine?_append_of_some hc, Option.some.injEq, Prod.mk.injEq] at h
        obtain ⟨rfl, rfl⟩ := h
        refine ⟨unread left' source, hs.tail.unread left', contents_unread left' source, ?_⟩
        simp [readThrough, hc, unread_append]
      | none =>
        rw [cutLine?_append_of_none hc, Option.map_eq_some_iff] at h
        obtain ⟨⟨more, left'⟩, hmore, heq⟩ := h
        obtain ⟨rfl, rfl⟩ := Prod.mk.inj heq
        obtain ⟨rest, hrest, hleft, hread⟩ := ih hs.tail hmore
        exact ⟨rest, hrest, hleft, by simp [readThrough, hc, hread]⟩

theorem readThrough_of_uncut {source : Source} (hs : NeverFails source)
    (h : cutLine? source.contents = none) (later : Source) :
    readThrough (source ++ later) =
      ((readThrough later).1.map (source.contents ++ ·), (readThrough later).2) := by
  induction source with
  | nil => cases hl : (readThrough later).1 <;> simp [contents, Except.map, ← hl]
  | cons fill source ih =>
    cases fill with
    | interrupted => exact ih hs.tail h
    | failed fault => exact absurd List.mem_cons_self (hs fault)
    | bytes b bytes =>
      change cutLine? ((b :: bytes) ++ contents source) = none at h
      have hc : cutLine? (b :: bytes) = none := by
        cases hc : cutLine? (b :: bytes) with
        | none => rfl
        | some cut =>
          rw [cutLine?_append_of_some hc] at h
          exact absurd h (Option.some_ne_none _)
      rw [cutLine?_append_of_none hc, Option.map_eq_none_iff] at h
      have hread := ih hs.tail h
      cases hl : (readThrough later).1 <;>
        simp [readThrough, hc, hread, hl, Except.map, contents]

theorem readLine_of_cut {source : Source} (hs : NeverFails source) {line left : Bytes}
    (h : cutLine? source.contents = some (line, left)) (later : Source) :
    ∃ rest, NeverFails rest ∧ contents rest = left ∧
      readLine (source ++ later) = (.ok (some line), rest ++ later) := by
  obtain ⟨rest, hrest, hleft, hread⟩ := readThrough_of_cut hs h later
  obtain ⟨b, bytes, rfl⟩ := List.exists_cons_of_ne_nil (cutLine?_line_ne_nil h)
  exact ⟨rest, hrest, hleft, by simp [readLine, hread]⟩

theorem readLine_of_uncut {source : Source} (hs : NeverFails source)
    (h : cutLine? source.contents = none) :
    readLine source =
      (.ok (if source.contents.isEmpty then none else some source.contents), []) := by
  have hread := readThrough_of_uncut hs h []
  rw [List.append_nil] at hread
  cases hc : contents source <;> simp [readLine, hread, readThrough, Except.map, hc]

/-- What a source brought before it fails is lost, unless a newline ended it. -/
theorem readLine_of_failed {source : Source} (hs : NeverFails source)
    (h : cutLine? source.contents = none) (fault : Fault) (later : Source) :
    readLine (source ++ .failed fault :: later) = (.error fault, later) := by
  simp [readLine, readThrough_of_uncut hs h, readThrough, Except.map]

theorem first_failure (source : Source) :
    NeverFails source ∨ ∃ before fault later, NeverFails before ∧
      source = before ++ .failed fault :: later := by
  induction source with
  | nil => exact .inl neverFails_nil
  | cons fill source ih =>
    have keep (hfill : ∀ fault, Fill.failed fault ≠ fill) {before : Source}
        (h : NeverFails before) : NeverFails (fill :: before) := by
      intro fault hmem
      rcases List.mem_cons.mp hmem with heq | hmem
      · exact hfill fault heq
      · exact h fault hmem
    by_cases hfill : ∃ fault, Fill.failed fault = fill
    · obtain ⟨fault, rfl⟩ := hfill
      exact .inr ⟨[], fault, source, neverFails_nil, rfl⟩
    · push Not at hfill
      rcases ih with hs | ⟨before, fault, later, hs, rfl⟩
      · exact .inl (keep hfill hs)
      · exact .inr ⟨fill :: before, fault, later, keep hfill hs, rfl⟩

end Source
end LineShell
