import LineShell.Proofs.InputLines

/-!
# What reading brings

It makes no difference to what is read how the bytes are cut into fills, or how often a fill is
interrupted. Where a request fails does: what was read of a line by then is lost, and the next line
begins there. So what reading brings can be told from the bytes and the failures, with a position in
the bytes in place of the source.
-/
namespace LineShell

open Bytes (newline EndsInNewline)

/-- The bytes at a position through the next newline, or to the end if there is none. -/
def Bytes.lineAt (data : Bytes) (position : Nat) : Bytes :=
  let rest := data.drop position
  rest.takeWhile (· != newline) ++ (rest.dropWhile (· != newline)).take 1

/-- How far reading has come, and the failures still ahead, each with its offset. -/
structure Progress where
  position : Nat
  ahead : List (Nat × Fault)

namespace Progress

/-- A failure comes before the line if it is met before the line is complete. With its newline a
line is complete; without one it is so only when the end has been seen. -/
def FailsFirst (data : Bytes) (position offset : Nat) : Prop :=
  let line := data.lineAt position
  offset < position + line.length ∨ offset = position + line.length ∧ ¬ EndsInNewline line

instance (data : Bytes) (position offset : Nat) : Decidable (FailsFirst data position offset) :=
  inferInstanceAs (Decidable (_ ∨ _ ∧ _))

def complete (data : Bytes) (p : Progress) : Except Fault (Option Bytes) × Progress :=
  let line := data.lineAt p.position
  (.ok (if p.position < data.length then some line else none),
    ⟨p.position + line.length, p.ahead⟩)

/-- What one call brings. A failure that comes first loses the line's bytes before it. -/
def read (data : Bytes) (p : Progress) : Except Fault (Option Bytes) × Progress :=
  match p.ahead with
  | [] => p.complete data
  | (offset, fault) :: later =>
    if FailsFirst data p.position offset then (.error fault, ⟨offset, later⟩) else p.complete data

def reads (data : Bytes) : Nat → Progress → List (Except Fault (Option Bytes))
  | 0, _ => []
  | n + 1, p => (p.read data).1 :: reads data n (p.read data).2

end Progress

namespace Source

def failuresFrom : Nat → Source → List (Nat × Fault)
  | _, [] => []
  | start, .bytes _ rest :: source => failuresFrom (start + (rest.length + 1)) source
  | start, .interrupted :: source => failuresFrom start source
  | start, .failed fault :: source => (start, fault) :: failuresFrom start source

/-- The bytes are the data, and requests fail at the given offsets. One that lies past the end is
never met. -/
structure Delivers (source : Source) (data : Bytes) (failures : List (Nat × Fault)) : Prop where
  contents : source.contents = data
  failures : source.failuresFrom 0 = failures.filter (·.1 ≤ data.length)

end Source

section
variable {data line left : Bytes} {position : Nat}

theorem lineAt_of_cut (h : cutLine? (data.drop position) = some (line, left)) :
    data.lineAt position = line := by
  unfold cutLine? at h
  unfold Bytes.lineAt
  split at h
  · cases h
  · next first left' hrest =>
    obtain ⟨rfl, -⟩ := Prod.mk.inj (Option.some.inj h)
    simp [hrest]

theorem lineAt_of_uncut (h : cutLine? (data.drop position) = none) :
    data.lineAt position = data.drop position := by
  unfold cutLine? at h
  split at h
  · next hrest =>
    have hwhole := List.takeWhile_append_dropWhile (p := (· != newline)) (l := data.drop position)
    rw [hrest, List.append_nil] at hwhole
    simp [Bytes.lineAt, hrest, hwhole]
  · cases h

theorem drop_of_cut (h : cutLine? (data.drop position) = some (line, left)) :
    data.drop (position + line.length) = left := by
  rw [← List.drop_drop, ← append_of_cutLine? h, List.drop_left]

theorem lineAt_length_le (data : Bytes) (position : Nat) :
    (data.lineAt position).length ≤ data.length - position := by
  rw [← List.length_drop]
  cases h : cutLine? (data.drop position) with
  | none => exact Nat.le_of_eq (congrArg List.length (lineAt_of_uncut h))
  | some cut =>
    rw [lineAt_of_cut h, ← append_of_cutLine? h, List.length_append]
    omega

theorem lineAt_ne_nil (h : position < data.length) : data.lineAt position ≠ [] := by
  cases hcut : cutLine? (data.drop position) with
  | none =>
    rw [lineAt_of_uncut hcut]
    intro hnil
    have hlength := List.drop_eq_nil_iff.mp hnil
    omega
  | some cut =>
    rw [lineAt_of_cut hcut]
    exact cutLine?_line_ne_nil hcut

theorem newline_notMem_dropLast (data : Bytes) (position : Nat) :
    newline ∉ (data.lineAt position).dropLast := by
  have hbefore : newline ∉ (data.drop position).takeWhile (· != newline) := by
    intro hmem
    simpa using List.all_eq_true.mp List.all_takeWhile _ hmem
  unfold Bytes.lineAt
  cases hrest : (data.drop position).dropWhile (· != newline) with
  | nil =>
    simp only [hrest, List.take_nil, List.append_nil]
    exact fun hmem => hbefore (List.dropLast_subset _ hmem)
  | cons first rest =>
    simp only [hrest, List.take_succ_cons, List.take_zero, List.dropLast_concat]
    exact hbefore

end

namespace Progress

variable {data : Bytes} {p : Progress}

theorem complete_of_within (hp : p.position < data.length) :
    p.complete data = (.ok (some (data.lineAt p.position)),
      ⟨p.position + (data.lineAt p.position).length, p.ahead⟩) := by
  simp [complete, hp]

theorem complete_of_end (hp : data.length ≤ p.position) : p.complete data = (.ok none, p) := by
  have hline := lineAt_length_le data p.position
  have hzero : (data.lineAt p.position).length = 0 := by omega
  simp [complete, hzero, Nat.not_lt.mpr hp]

theorem read_cases (data : Bytes) (p : Progress) :
    (∃ offset fault later, p.ahead = (offset, fault) :: later ∧
      FailsFirst data p.position offset ∧ p.read data = (.error fault, ⟨offset, later⟩)) ∨
    p.read data = p.complete data := by
  cases hahead : p.ahead with
  | nil => exact .inr (by simp [read, hahead])
  | cons first later =>
    obtain ⟨offset, fault⟩ := first
    by_cases hfails : FailsFirst data p.position offset
    · exact .inl ⟨offset, fault, later, rfl, hfails, by simp [read, hahead, hfails]⟩
    · exact .inr (by simp [read, hahead, hfails])

theorem not_failsFirst_of_cut {before later line left : Bytes} {position : Nat}
    (hdata : data.drop position = before ++ later) (hcut : cutLine? before = some (line, left)) :
    ¬ FailsFirst data position (position + before.length) := by
  have hline : data.lineAt position = line :=
    lineAt_of_cut (hdata ▸ cutLine?_append_of_some hcut later)
  have hlength := congrArg List.length (append_of_cutLine? hcut)
  rw [List.length_append] at hlength
  unfold FailsFirst
  rw [hline]
  rintro (hlt | ⟨_, hopen⟩)
  · omega
  · exact hopen (cutLine?_endsInNewline hcut)

theorem failsFirst_of_uncut {before later : Bytes} {position : Nat}
    (hdata : data.drop position = before ++ later) (hcut : cutLine? before = none) :
    FailsFirst data position (position + before.length) := by
  have hall := cutLine?_append_of_none hcut later
  rw [← hdata] at hall
  unfold FailsFirst
  cases hlater : cutLine? later with
  | some cut =>
    have hpos := List.length_pos_of_ne_nil (cutLine?_line_ne_nil hlater)
    rw [hlater, Option.map_some] at hall
    left
    rw [lineAt_of_cut hall, List.length_append]
    omega
  | none =>
    rw [hlater, Option.map_none] at hall
    have hopen : ¬ EndsInNewline (data.drop position) :=
      fun hend => newline_notMem_of_uncut hall (endsInNewline_mem hend)
    have hlength := congrArg List.length hdata
    rw [List.length_append] at hlength
    rw [lineAt_of_uncut hall]
    by_cases hlast : later.length = 0
    · exact .inr ⟨by omega, hopen⟩
    · exact .inl (by omega)

theorem read_of_none_ahead (h : ∀ f ∈ p.ahead, data.length < f.1) (hp : p.position ≤ data.length) :
    p.read data = p.complete data := by
  rcases read_cases data p with ⟨offset, fault, later, hahead, hfails, _⟩ | hread
  · have hpast : data.length < offset := h (offset, fault) (hahead ▸ List.mem_cons_self)
    have hline := lineAt_length_le data p.position
    rcases hfails with hlt | ⟨heq, _⟩
    · omega
    · omega
  · exact hread

theorem read_of_end (h : (p.read data).1 = .ok none) : (p.read data).2 = p := by
  rcases read_cases data p with ⟨_, _, _, _, _, hread⟩ | hread
  · rw [hread] at h
    cases h
  · by_cases hp : p.position < data.length
    · rw [hread, complete_of_within hp] at h
      cases h
    · rw [hread, complete_of_end (Nat.not_lt.mp hp)]

theorem line_of_read {line : Bytes} (h : (p.read data).1 = .ok (some line)) :
    line ≠ [] ∧ newline ∉ line.dropLast := by
  rcases read_cases data p with ⟨_, _, _, _, _, hread⟩ | hread
  · rw [hread] at h
    cases h
  · by_cases hp : p.position < data.length
    · rw [hread, complete_of_within hp] at h
      cases h
      exact ⟨lineAt_ne_nil hp, newline_notMem_dropLast data p.position⟩
    · rw [hread, complete_of_end (Nat.not_lt.mp hp)] at h
      cases h

theorem line_of_mem_reads {n : Nat} {line : Bytes} (h : .ok (some line) ∈ reads data n p) :
    line ≠ [] ∧ newline ∉ line.dropLast := by
  induction n generalizing p with
  | zero => cases h
  | succ n ih =>
    rcases List.mem_cons.mp h with hfirst | hlater
    · exact line_of_read hfirst.symm
    · exact ih hlater

theorem reads_of_end (h : (p.read data).1 = .ok none) (n : Nat) :
    reads data n p = List.replicate n (.ok none) := by
  induction n with
  | zero => rfl
  | succ n ih => rw [reads, read_of_end h, ih, h, List.replicate_succ]

theorem end_stays {n i j : Nat} (hij : i ≤ j) (hj : j < n)
    (h : (reads data n p)[i]? = some (.ok none)) : (reads data n p)[j]? = some (.ok none) := by
  induction n generalizing p i j with
  | zero => omega
  | succ n ih =>
    cases i with
    | zero =>
      have hfirst : (p.read data).1 = .ok none := Option.some.inj h
      rw [reads_of_end hfirst, List.getElem?_replicate_of_lt hj]
    | succ i =>
      cases j with
      | zero => omega
      | succ j => exact ih (by omega) (by omega) h

end Progress

namespace Source

variable {data : Bytes} {source : Source}

theorem contents_append (before later : Source) :
    contents (before ++ later) = contents before ++ contents later :=
  List.flatMap_append

theorem failuresFrom_append (start : Nat) (before later : Source) :
    failuresFrom start (before ++ later) =
      failuresFrom start before ++ failuresFrom (start + (contents before).length) later := by
  induction before generalizing start with
  | nil => rfl
  | cons fill before ih =>
    cases fill with
    | bytes b rest =>
      have hlength : (contents (.bytes b rest :: before)).length =
          rest.length + 1 + (contents before).length := by
        simp [contents]
        omega
      rw [hlength, ← Nat.add_assoc]
      exact ih _
    | interrupted => exact ih start
    | failed fault => exact congrArg _ (ih start)

theorem failuresFrom_of_neverFails (h : NeverFails source) (start : Nat) :
    failuresFrom start source = [] := by
  induction source generalizing start with
  | nil => rfl
  | cons fill source ih =>
    cases fill with
    | bytes b rest => exact ih h.tail _
    | interrupted => exact ih h.tail start
    | failed fault => exact absurd List.mem_cons_self (h fault)

theorem failuresFrom_of_failed {before : Source} (h : NeverFails before) (start : Nat)
    (fault : Fault) (later : Source) :
    failuresFrom start (before ++ .failed fault :: later) =
      (start + (contents before).length, fault) ::
        failuresFrom (start + (contents before).length) later := by
  rw [failuresFrom_append, failuresFrom_of_neverFails h]
  rfl

/-- The source is where reading has come: it holds the rest of the data, and the failures ahead. -/
structure At (data : Bytes) (source : Source) (p : Progress) : Prop where
  within : p.position ≤ data.length
  contents : source.contents = data.drop p.position
  failures : source.failuresFrom p.position = p.ahead.filter (·.1 ≤ data.length)
  sorted : p.ahead.Pairwise (·.1 ≤ ·.1)

theorem Delivers.at_start {failures : List (Nat × Fault)} (h : source.Delivers data failures)
    (hsorted : failures.Pairwise (·.1 ≤ ·.1)) : At data source ⟨0, failures⟩ :=
  ⟨Nat.zero_le _, h.contents, h.failures, hsorted⟩

namespace At

variable {p : Progress}

theorem complete_of_cut {line left : Bytes} (h : At data source p) (rest : Source)
    (hcut : cutLine? (data.drop p.position) = some (line, left)) (hleft : rest.contents = left)
    (hfailures : rest.failuresFrom (p.position + line.length) =
      source.failuresFrom p.position) :
    (p.complete data).1 = .ok (some line) ∧ At data rest (p.complete data).2 := by
  have hlength := congrArg List.length (append_of_cutLine? hcut)
  have hpos := List.length_pos_of_ne_nil (cutLine?_line_ne_nil hcut)
  simp only [List.length_append, List.length_drop] at hlength
  have hp : p.position < data.length := by omega
  rw [Progress.complete_of_within hp, lineAt_of_cut hcut]
  refine ⟨rfl, ?_, ?_, ?_, h.sorted⟩
  · dsimp only
    omega
  · exact hleft.trans (drop_of_cut hcut).symm
  · exact hfailures.trans h.failures

theorem complete_of_uncut (h : At data source p)
    (hcut : cutLine? (data.drop p.position) = none) (hahead : source.failuresFrom p.position = []) :
    (p.complete data).1 =
        .ok (if source.contents.isEmpty then none else some source.contents) ∧
      At data [] (p.complete data).2 := by
  have hnone := h.failures.symm.trans hahead
  have hwithin := h.within
  rw [h.contents]
  by_cases hp : p.position < data.length
  · have hne : (data.drop p.position).isEmpty = false := by simpa using hp
    have hend : p.position + (data.drop p.position).length = data.length := by
      rw [List.length_drop]
      omega
    rw [Progress.complete_of_within hp, lineAt_of_uncut hcut, hend, hne]
    exact ⟨rfl, Nat.le_refl _, List.drop_length.symm, hnone.symm, h.sorted⟩
  · have hnil : data.drop p.position = [] := List.drop_eq_nil_of_le (Nat.not_lt.mp hp)
    rw [Progress.complete_of_end (Nat.not_lt.mp hp), hnil]
    exact ⟨rfl, hwithin, hnil.symm, hnone.symm, h.sorted⟩

theorem read_of_neverFails (h : At data source p) (hs : NeverFails source) :
    p.read data = p.complete data := by
  have hnone := failuresFrom_of_neverFails hs p.position
  rw [h.failures, List.filter_eq_nil_iff] at hnone
  refine Progress.read_of_none_ahead ?_ h.within
  intro f hf
  have hpast := hnone f hf
  simp only [decide_eq_true_eq] at hpast
  omega

theorem contents_around {before later : Source} {fault : Fault}
    (h : At data (before ++ .failed fault :: later) p) :
    data.drop p.position = Source.contents before ++ Source.contents later := by
  rw [← h.contents, contents_append]
  rfl

theorem ahead_of_failed {before later : Source} {fault : Fault}
    (h : At data (before ++ .failed fault :: later) p) (hs : NeverFails before) :
    ∃ rest, p.ahead = (p.position + (Source.contents before).length, fault) :: rest ∧
      later.failuresFrom (p.position + (Source.contents before).length) =
        rest.filter (·.1 ≤ data.length) := by
  have hfailures := h.failures
  rw [failuresFrom_of_failed hs] at hfailures
  cases hahead : p.ahead with
  | nil => simp [hahead] at hfailures
  | cons first rest =>
    rw [hahead] at hfailures
    by_cases hfirst : first.1 ≤ data.length
    · rw [List.filter_cons_of_pos (by simpa using hfirst)] at hfailures
      obtain ⟨rfl, hrest⟩ := List.cons.inj hfailures
      exact ⟨rest, rfl, hrest⟩
    · -- those behind one that lies past the end lie past it too
      have hsorted := List.pairwise_cons.mp (hahead ▸ h.sorted)
      have hnone : (first :: rest).filter (·.1 ≤ data.length) = [] := by
        rw [List.filter_eq_nil_iff]
        intro f hf
        simp only [decide_eq_true_eq]
        rcases List.mem_cons.mp hf with rfl | hf
        · exact hfirst
        · have hle := hsorted.1 f hf
          omega
      rw [hnone] at hfailures
      cases hfailures

theorem read_of_cut_before {before later : Source} {fault : Fault} {line left : Bytes}
    (h : At data (before ++ .failed fault :: later) p) (hs : NeverFails before)
    (hcut : cutLine? (Source.contents before) = some (line, left)) :
    p.read data = p.complete data := by
  obtain ⟨rest, hahead, _⟩ := h.ahead_of_failed hs
  have hfirst := Progress.not_failsFirst_of_cut h.contents_around hcut
  simp only [Progress.read, hahead, if_neg hfirst]

theorem read_of_uncut_before {before later : Source} {fault : Fault}
    (h : At data (before ++ .failed fault :: later) p) (hs : NeverFails before)
    (hcut : cutLine? (Source.contents before) = none) :
    (p.read data).1 = .error fault ∧ At data later (p.read data).2 := by
  obtain ⟨rest, hahead, hrest⟩ := h.ahead_of_failed hs
  have hfirst := Progress.failsFirst_of_uncut h.contents_around hcut
  have hread : p.read data =
      (.error fault, ⟨p.position + (Source.contents before).length, rest⟩) := by
    simp only [Progress.read, hahead, if_pos hfirst]
  have hlength := congrArg List.length h.contents_around
  rw [List.length_append, List.length_drop] at hlength
  rw [hread]
  refine ⟨rfl, ?_, ?_, hrest, ?_⟩
  · have hp := h.within
    dsimp only
    omega
  · dsimp only
    rw [← List.drop_drop, h.contents_around, List.drop_left]
  · exact (List.pairwise_cons.mp (hahead ▸ h.sorted)).2

theorem readLine (h : At data source p) :
    source.readLine.1 = (p.read data).1 ∧ At data source.readLine.2 (p.read data).2 := by
  rcases source.first_failure with hs | ⟨before, fault, later, hs, rfl⟩
  · rw [h.read_of_neverFails hs]
    cases hcut : cutLine? source.contents with
    | some cut =>
      obtain ⟨line, left⟩ := cut
      obtain ⟨rest, hrest, hleft, hread⟩ := Source.readLine_of_cut hs hcut []
      rw [List.append_nil, List.append_nil] at hread
      have hnone := failuresFrom_of_neverFails hs p.position
      obtain ⟨hresult, hat⟩ := h.complete_of_cut rest (h.contents ▸ hcut) hleft
        ((failuresFrom_of_neverFails hrest _).trans hnone.symm)
      rw [hread, hresult]
      exact ⟨rfl, hat⟩
    | none =>
      have hread := Source.readLine_of_uncut hs hcut
      obtain ⟨hresult, hat⟩ := h.complete_of_uncut (h.contents ▸ hcut)
        (failuresFrom_of_neverFails hs p.position)
      rw [hread, hresult]
      exact ⟨rfl, hat⟩
  · cases hcut : cutLine? (Source.contents before) with
    | some cut =>
      obtain ⟨line, left⟩ := cut
      obtain ⟨rest, hrest, hleft, hread⟩ := Source.readLine_of_cut hs hcut (.failed fault :: later)
      have hlength := congrArg List.length (append_of_cutLine? hcut)
      rw [List.length_append, ← hleft] at hlength
      have hrest' : Source.contents (rest ++ .failed fault :: later) =
          left ++ Source.contents later := by
        rw [contents_append, hleft]
        rfl
      obtain ⟨hresult, hat⟩ := h.complete_of_cut (rest ++ .failed fault :: later)
        (h.contents_around ▸ cutLine?_append_of_some hcut _) hrest' (by
          rw [failuresFrom_of_failed hrest, failuresFrom_of_failed hs, ← hlength, Nat.add_assoc])
      rw [h.read_of_cut_before hs hcut, hread, hresult]
      exact ⟨rfl, hat⟩
    | none =>
      obtain ⟨hresult, hat⟩ := h.read_of_uncut_before hs hcut
      rw [Source.readLine_of_failed hs hcut, hresult]
      exact ⟨rfl, hat⟩

theorem readLines (h : At data source p) (n : Nat) :
    source.readLines n = Progress.reads data n p := by
  induction n generalizing source p with
  | zero => rfl
  | succ n ih =>
    obtain ⟨hresult, hat⟩ := h.readLine
    rw [Source.readLines, Progress.reads, hresult, ih hat]

end At

theorem contents_ofBytes (size : Nat) (data : Bytes) : contents (ofBytes size data) = data := by
  fun_induction ofBytes size data with
  | case1 => rfl
  | case2 b rest h => simp [contents]
  | case3 b rest h ih =>
    change b :: (rest.take (size - 1) ++ contents (ofBytes size (rest.drop (size - 1)))) = _
    rw [ih, List.take_append_drop]

theorem neverFails_ofBytes (size : Nat) (data : Bytes) : NeverFails (ofBytes size data) := by
  fun_induction ofBytes size data with
  | case1 => exact neverFails_nil
  | case2 b rest h => simp [NeverFails]
  | case3 b rest h ih => simpa [NeverFails] using ih

def failure? : Nat × Fill → Option (Nat × Fault)
  | (offset, .failed fault) => some (offset, fault)
  | _ => none

/-- Only failures and interruptions are marked: bytes come from the data alone. -/
def BringNothing (events : List (Nat × Fill)) : Prop :=
  ∀ e ∈ events, ∀ first rest, e.2 ≠ .bytes first rest

theorem contents_go (size : Nat) {events : List (Nat × Fill)} (h : BringNothing events)
    (start : Nat) (data : Bytes) : contents (deliver.go size start data events) = data := by
  induction events generalizing start data with
  | nil => exact contents_ofBytes size data
  | cons e events ih =>
    obtain ⟨offset, event⟩ := e
    have hevent : contents [event] = [] := by
      cases event with
      | bytes first rest => exact absurd rfl (h _ List.mem_cons_self first rest)
      | interrupted | failed => rfl
    have hlater := ih fun e he => h e (List.mem_cons_of_mem _ he)
    unfold deliver.go
    split
    · rw [contents_append, contents_ofBytes, ← List.singleton_append, contents_append, hevent,
        hlater, List.nil_append, List.take_append_drop]
    · exact hlater start data

theorem failuresFrom_go (size : Nat) {events : List (Nat × Fill)} (h : BringNothing events)
    (hsorted : events.Pairwise (·.1 ≤ ·.1)) {start : Nat} (hstart : ∀ e ∈ events, start ≤ e.1)
    (data : Bytes) :
    failuresFrom start (deliver.go size start data events) =
      (events.filterMap failure?).filter (·.1 ≤ start + data.length) := by
  induction events generalizing start data with
  | nil => exact failuresFrom_of_neverFails (neverFails_ofBytes size data) start
  | cons e events ih =>
    obtain ⟨offset, event⟩ := e
    obtain ⟨hlater, hsorted⟩ := List.pairwise_cons.mp hsorted
    have hevents : BringNothing events := fun e he => h e (List.mem_cons_of_mem _ he)
    have hoffset : start ≤ offset := hstart _ List.mem_cons_self
    unfold deliver.go
    split
    · next hle =>
      have hend : offset + (data.drop (offset - start)).length = start + data.length := by
        rw [List.length_drop]
        omega
      have hmet : start + (data.take (offset - start)).length = offset := by
        rw [List.length_take]
        omega
      have hrest := ih hevents hsorted hlater (data.drop (offset - start))
      rw [hend] at hrest
      rw [failuresFrom_append, failuresFrom_of_neverFails (neverFails_ofBytes _ _),
        contents_ofBytes, hmet, Nat.max_eq_right hoffset, List.nil_append]
      cases event with
      | bytes first rest => exact absurd rfl (h _ List.mem_cons_self first rest)
      | interrupted => exact hrest
      | failed fault =>
        change (offset, fault) :: _ = ((offset, fault) :: events.filterMap failure?).filter _
        rw [List.filter_cons_of_pos (by simpa using hle)]
        exact congrArg _ hrest
    · next hpast =>
      rw [ih hevents hsorted (fun e he => Nat.le_trans hoffset (hlater e he))]
      cases event with
      | bytes first rest => exact absurd rfl (h _ List.mem_cons_self first rest)
      | interrupted => rfl
      | failed fault =>
        change _ = ((offset, fault) :: events.filterMap failure?).filter _
        rw [List.filter_cons_of_neg (by simpa using hpast)]

theorem deliver_delivers (size : Nat) (data : Bytes) {events : List (Nat × Fill)}
    (h : BringNothing events) (hsorted : events.Pairwise (·.1 ≤ ·.1)) :
    (deliver size data events).Delivers data (events.filterMap failure?) := by
  refine ⟨contents_go size h 0 data, ?_⟩
  have hfailures := failuresFrom_go size h hsorted (fun e _ => Nat.zero_le e.1) data
  rwa [Nat.zero_add] at hfailures

end Source

/-- Whatever source delivers them, the bytes and the failures alone tell what any number of calls
bring. Each line brought has something in it, and no newline but perhaps at its end; and once at the
end, reading stays there. -/
theorem reading_follows_bytes_and_failures {source : Source} {data : Bytes}
    {failures : List (Nat × Fault)} (h : source.Delivers data failures)
    (hsorted : failures.Pairwise (·.1 ≤ ·.1)) (calls : Nat) :
    let results := source.readLines calls
    results = Progress.reads data calls ⟨0, failures⟩ ∧
    (∀ line, .ok (some line) ∈ results → line ≠ [] ∧ newline ∉ line.dropLast) ∧
    (∀ i j, i ≤ j → j < calls → results[i]? = some (.ok none) → results[j]? = some (.ok none)) := by
  intro results
  have hresults : results = Progress.reads data calls ⟨0, failures⟩ :=
    (h.at_start hsorted).readLines calls
  rw [hresults]
  refine ⟨rfl, ?_, ?_⟩
  · intro line hline
    exact Progress.line_of_mem_reads hline
  · intro i j hij hj hnone
    exact Progress.end_stays hij hj hnone

/-- Fills of two bytes, interrupted before the first byte and inside a line. One failure lies in the
middle of a line, two in front of an empty line, one at the end of the bytes and one past it. -/
theorem reading_follows_two_bytes_at_a_time :
    let data := Bytes.ofString "ab\ncd\n\nef"
    let events : List (Nat × Fill) :=
      [(0, .interrupted), (4, .failed .noSpace), (5, .interrupted), (6, .failed .noSpace),
        (6, .failed .notDirectory), (9, .failed .noSpace), (10, .failed .noSpace)]
    let source := Source.deliver 2 data events
    source.Delivers data (events.filterMap Source.failure?) ∧
    (events.filterMap Source.failure?).Pairwise (·.1 ≤ ·.1) ∧
    source.readLines 9 =
      [.ok (some (Bytes.ofString "ab\n")), .error .noSpace, .ok (some (Bytes.ofString "d\n")),
        .error .noSpace, .error .notDirectory, .ok (some [newline]), .error .noSpace,
        .ok none, .ok none] := by
  intro data events source
  have h : source.Delivers data (events.filterMap Source.failure?) :=
    Source.deliver_delivers 2 data (by simp [Source.BringNothing, events]) (by decide)
  have hsorted : (events.filterMap Source.failure?).Pairwise (·.1 ≤ ·.1) := by decide
  refine ⟨h, hsorted, ?_⟩
  rw [(reading_follows_bytes_and_failures h hsorted 9).1]
  decide

end LineShell
