import LineShell.Proofs.InputLines
import LineShell.Proofs.OpenOutput
import LineShell.Screen
import LineShell.Machine

/-!
# The loop and what it means

On output that takes everything, a run is a sequence of turns, one for each line, and each turn
starts where the one before ended. The input decides by its lines how many turns there are: the
first line that asks to exit is the last, and a line that a failed read cut short is none.
-/
namespace LineShell

open Act (Brings)
open Bytes (lines newline endedBefore wholeLines)
open Source (NeverFails contents)

def asksToExit (line : Bytes) : Bool :=
  (tokenize line).command? = some (Bytes.ofString "exit")

theorem execute_exit {list : TokenList} (h : list.command? = some (Bytes.ofString "exit"))
    (s : Session) : (execute list s).result = .ok (.exit 1) := by
  have hexit : Builtin.ofName? (Bytes.ofString "exit") = some .exit :=
    Builtin.ofName?_eq_some_iff.mpr rfl
  simp only [execute, h, hexit]
  rfl

theorem execute_brings {list : TokenList} (h : list.command? ≠ some (Bytes.ofString "exit")) :
    Brings (· = .proceed) (execute list) := by
  unfold execute
  split
  · exact .pure rfl
  · next name hname =>
    split
    · next builtin hb =>
      have hne : builtin ≠ .exit := by
        rintro rfl
        exact h (hname.trans (congrArg some (Builtin.ofName?_eq_some_iff.mp hb)))
      exact .bind fun _ => builtin_brings hne list
    · exact runExternal_brings name list

section
variable {ε : Type} (shell : Shell) {line : Bytes} {s : Session}

theorem executeLine_of_ok {status : Status}
    (h : (execute (tokenize line) s).result = .ok status) :
    (shell.executeLine line s : Step ε Status) =
      ⟨.ok status, (execute (tokenize line) s).events, (execute (tokenize line) s).session⟩ := by
  have hrun : ((execute (tokenize line)).attempt s : Step ε _).result = .ok (.ok status) :=
    congrArg Except.ok h
  change ((execute (tokenize line)).attempt >>= _ : Act ε Status) s = _
  rw [Act.bind_ok hrun]
  simp [Act.attempt, Pure.pure, Act.pure]

theorem executeLine_of_error {error : CommandError}
    (h : (execute (tokenize line) s).result = .error error) :
    (shell.executeLine line s : Step ε Status) =
      let reported : Step ε Unit :=
        shell.report (Utf8.lossy ((tokenize line).command?.getD [])) error
          (execute (tokenize line) s).session
      ⟨.ok .proceed, (execute (tokenize line) s).events ++ reported.events, reported.session⟩ := by
  have hrun : ((execute (tokenize line)).attempt s : Step ε _).result = .ok (.error error) :=
    congrArg Except.ok h
  change ((execute (tokenize line)).attempt >>= _ : Act ε Status) s = _
  rw [Act.bind_ok hrun]
  simp only [Act.attempt]
  rw [Act.bind_ok rfl]
  simp [Pure.pure, Act.pure]

theorem executeLine_result (line : Bytes) (s : Session) :
    (shell.executeLine line s : Step ε Status).result =
      .ok (if asksToExit line then .exit 1 else .proceed) := by
  by_cases h : (tokenize line).command? = some (Bytes.ofString "exit")
  · rw [executeLine_of_ok shell (execute_exit h s)]
    simp [asksToExit, h]
  · cases hr : (execute (tokenize line) s).result with
    | error error =>
      rw [executeLine_of_error shell hr]
      simp [asksToExit, h]
    | ok status =>
      rw [executeLine_of_ok shell hr, execute_brings h s status hr]
      simp [asksToExit, h]

/-- A report changes nothing, so a line does to the world what its command does. -/
theorem executeLine_world (line : Bytes) (s : Session) :
    (shell.executeLine line s : Step ε Status).session.world =
      (execute (tokenize line) s).session.world := by
  cases hr : (execute (tokenize line) s).result with
  | error error =>
    rw [executeLine_of_error shell hr]
    exact (report_madeOf (ε := ε) shell _ error).world_eq _
  | ok status => rw [executeLine_of_ok shell hr]

theorem executeLine_events (line : Bytes) (s : Session) :
    ∃ told, (∀ e ∈ told, e.IsReport) ∧ (shell.executeLine line s : Step ε Status).events =
      (execute (tokenize line) s).events ++ told := by
  cases hr : (execute (tokenize line) s).result with
  | error error =>
    rw [executeLine_of_error shell hr]
    exact ⟨_, (report_madeOf (ε := ε) shell _ error).events _, rfl⟩
  | ok status =>
    rw [executeLine_of_ok shell hr]
    exact ⟨[], by simp, (List.append_nil _).symm⟩

theorem executeLine_start {line : Bytes} {s : Session} {e : Event} (he : e.IsStart) :
    e ∈ (shell.executeLine line s : Step ε Status).events ↔
      e ∈ (execute (tokenize line) s).events := by
  obtain ⟨told, htold, hevents⟩ := executeLine_events (ε := ε) shell line s
  have hnot : e ∉ told := fun h => (htold e h).not_start he
  simp [hevents, hnot]

end

def offered (piece : Bytes) : List Event :=
  if piece.isEmpty then [] else [.wrote piece .whole]

namespace Shell

variable (shell : Shell)

def prompting : List Event := offered (Bytes.ofString shell.prompt) ++ [.flushed none]

/-- What is seen of a run that is out of lines, at the end of the input or at a failed read. -/
def closing : Option Fault → List Event
  | none => shell.prompting ++ .record .endOfInput :: (offered [newline] ++ [.flushed none])
  | some _ => shell.prompting

def outcome : Option Fault → Except ShellError Nat
  | none => .ok 0
  | some fault => .error (.read fault)

def finish (failure : Option Fault) (s : Session) : Step ShellError Nat :=
  ⟨outcome failure, shell.closing failure, s⟩

/-- One turn of the loop: the prompt, the line, and what comes next unless the line asks to exit. -/
def takeTurn (line : Bytes) (next : Session → Step ShellError Nat) (s : Session) :
    Step ShellError Nat :=
  let turn : Step ShellError Status := shell.executeLine line s
  let rest := if asksToExit line then ⟨.ok 1, [.flushed none], turn.session⟩ else next turn.session
  ⟨rest.result, shell.prompting ++ .line line :: (turn.events ++ rest.events), rest.session⟩

def follow (failure : Option Fault) : List Bytes → Session → Step ShellError Nat
  | [] => shell.finish failure
  | line :: later => shell.takeTurn line (follow failure later)

variable {shell} {s : Session}

theorem write_opened (h : s.out = .accepting) (piece : Bytes) :
    Act.write piece s = ⟨.ok (), offered piece, s⟩ := by
  obtain ⟨world, out, err⟩ := s
  subst h
  rw [Act.write_step, offered]
  split <;> rfl

theorem writeOut_opened (h : s.out = .accepting) (piece : Bytes) :
    writeOut piece s = ⟨.ok (), offered piece, s⟩ :=
  Act.mapError_of_ok (write_opened h piece)

theorem flush_opened (h : s.out = .accepting) : s.out.flush = (none, s.out) := by
  rw [h]
  rfl

theorem flushOut_of_kept (h : s.out.flush = (none, s.out)) :
    flushOut s = ⟨.ok (), [.flushed none], s⟩ :=
  Act.mapError_of_ok (by simp [Act.flush_step, h])

theorem writeOut_then {piece : Bytes} {s' : Session}
    (h : writeOut piece s = ⟨.ok (), offered piece, s'⟩) (next : Unit → Act ShellError Nat) :
    (writeOut piece >>= next) s =
      ⟨(next () s').result, offered piece ++ (next () s').events, (next () s').session⟩ := by
  rw [Act.bind_ok (congrArg Step.result h), h]

theorem flushOut_then (h : s.out.flush = (none, s.out)) (next : Unit → Act ShellError Nat) :
    (flushOut >>= next) s =
      ⟨(next () s).result, .flushed none :: (next () s).events, (next () s).session⟩ := by
  rw [Act.bind_ok (congrArg Step.result (flushOut_of_kept h)), flushOut_of_kept h]
  rfl

theorem happen_then (event : Event) (next : Unit → Act ShellError Nat) :
    (Act.happen event >>= next) s =
      ⟨(next () s).result, event :: (next () s).events, (next () s).session⟩ :=
  Act.bind_ok rfl

theorem run_of_failed (h : s.out = .accepting) {source : Source} {fault : Fault}
    (hr : source.readLine.1 = .error fault) : shell.run source s = shell.finish (some fault) s := by
  rw [run_eq, writeOut_then (writeOut_opened h _), flushOut_then (flush_opened h)]
  simp only [hr]
  simp [finish, outcome, closing, prompting, Act.fail]

theorem run_of_end (h : s.out = .accepting) {source : Source} (hr : source.readLine.1 = .ok none) :
    shell.run source s = shell.finish none s := by
  rw [run_eq, writeOut_then (writeOut_opened h _), flushOut_then (flush_opened h)]
  simp only [hr, Act.log, happen_then, writeOut_then (writeOut_opened h _),
    flushOut_then (flush_opened h)]
  simp [finish, outcome, closing, prompting, Pure.pure, Act.pure]

theorem run_of_prompted {s' : Session} {source : Source} {line : Bytes}
    (hw : writeOut (Bytes.ofString shell.prompt) s =
      ⟨.ok (), offered (Bytes.ofString shell.prompt), s'⟩)
    (hf : s'.out.flush = (none, s'.out)) (hr : source.readLine.1 = .ok (some line))
    (hout : (shell.executeLine line s' : Step ShellError Status).session.out.flush =
      (none, (shell.executeLine line s' : Step ShellError Status).session.out)) :
    shell.run source s = shell.takeTurn line (shell.run source.readLine.2) s' := by
  have hturn := executeLine_result (ε := ShellError) shell line s'
  rw [run_eq, writeOut_then hw, flushOut_then hf]
  simp only [hr, happen_then, takeTurn]
  rw [Act.bind_ok hturn]
  by_cases hexit : asksToExit line = true
  · simp only [hexit, if_true, flushOut_then hout]
    simp [prompting, Pure.pure, Act.pure]
  · simp [hexit, prompting]

theorem run_of_line (h : s.out = .accepting) {source : Source} {line : Bytes}
    (hr : source.readLine.1 = .ok (some line)) :
    shell.run source s = shell.takeTurn line (shell.run source.readLine.2) s :=
  run_of_prompted (writeOut_opened h _) (flush_opened h) hr
    (flush_opened (executeLine_keeps_opened h shell line))

theorem takeTurn_of_exit {line : Bytes} (h : asksToExit line = true)
    (next : Session → Step ShellError Nat) :
    shell.takeTurn line next s =
      let turn : Step ShellError Status := shell.executeLine line s
      ⟨.ok 1, shell.prompting ++ .line line :: (turn.events ++ [.flushed none]), turn.session⟩ := by
  simp [takeTurn, h]

theorem takeTurn_of_proceed {line : Bytes} (h : asksToExit line ≠ true)
    (next : Session → Step ShellError Nat) :
    shell.takeTurn line next s =
      let turn : Step ShellError Status := shell.executeLine line s
      let rest := next turn.session
      ⟨rest.result, shell.prompting ++ .line line :: (turn.events ++ rest.events),
        rest.session⟩ := by
  simp [takeTurn, h]

theorem takeTurn_congr {line : Bytes} {next next' : Session → Step ShellError Nat}
    (h : next (shell.executeLine line s : Step ShellError Status).session =
      next' (shell.executeLine line s : Step ShellError Status).session) :
    shell.takeTurn line next s = shell.takeTurn line next' s := by
  simp only [takeTurn, h]

/-- While lines end before the source does, reading them one by one cuts them off its contents. How
a run goes on from there is left to what comes later. -/
theorem run_follows_cuts {later : Source} {failure : Option Fault} {linesOf : Bytes → List Bytes}
    (hcuts : ∀ {data line left}, cutLine? data = some (line, left) →
      linesOf data = line :: linesOf left)
    (hend : ∀ {source s}, s.out = .accepting → NeverFails source →
      cutLine? source.contents = none →
      shell.run (source ++ later) s = shell.follow failure (linesOf source.contents) s)
    {source : Source} (hs : NeverFails source) (h : s.out = .accepting) :
    shell.run (source ++ later) s = shell.follow failure (linesOf source.contents) s := by
  -- a line that is cut off leaves fewer bytes, though not always a shorter source
  induction hn : (contents source).length using Nat.strongRecOn generalizing source s with
  | ind n ih =>
    cases hcut : cutLine? (contents source) with
    | none => exact hend h hs hcut
    | some cut =>
      obtain ⟨line, left⟩ := cut
      obtain ⟨rest, hrest, hleft, hread⟩ := Source.readLine_of_cut hs hcut later
      have hlt : (contents rest).length < n := by
        rw [hleft, ← hn]
        exact length_lt_of_cut hcut
      rw [run_of_line h (congrArg Prod.fst hread), hread, hcuts hcut, follow, ← hleft]
      exact takeTurn_congr (ih _ hlt hrest (executeLine_keeps_opened h shell line) rfl)

theorem run_follows_lines {source : Source} (hs : NeverFails source) (h : s.out = .accepting) :
    shell.run source s = shell.follow none (lines source.contents) s := by
  have hnil {t : Session} (ht : t.out = .accepting) : shell.run [] t = shell.finish none t :=
    run_of_end ht rfl
  suffices hrun : shell.run (source ++ []) s = shell.follow none (lines source.contents) s by
    rwa [List.append_nil] at hrun
  refine run_follows_cuts lines_of_cut (fun {source s} h hs hcut => ?_) hs h
  have hread := Source.readLine_of_uncut hs hcut
  rw [List.append_nil, lines_of_uncut hcut]
  split at hread
  · next hempty => rw [run_of_end h (congrArg Prod.fst hread), if_pos hempty, follow]
  · next hempty =>
    rw [run_of_line h (congrArg Prod.fst hread), hread, if_neg hempty, follow, follow]
    exact takeTurn_congr (hnil (executeLine_keeps_opened h shell _))

theorem run_follows_wholeLines {source : Source} (hs : NeverFails source) (h : s.out = .accepting)
    (fault : Fault) (later : Source) :
    shell.run (source ++ .failed fault :: later) s =
      shell.follow (some fault) (wholeLines source.contents) s := by
  refine run_follows_cuts wholeLines_of_cut (fun {source s} h hs hcut => ?_) hs h
  have hread := Source.readLine_of_failed hs hcut fault later
  rw [run_of_failed h (congrArg Prod.fst hread), wholeLines_of_uncut hcut, follow]

end Shell

def executed (events : List Event) : List Bytes :=
  events.filterMap fun
    | .line line => some line
    | _ => none

def written (events : List Event) : Bytes := events.flatMap Event.accepted

theorem executed_append (before after : List Event) :
    executed (before ++ after) = executed before ++ executed after :=
  List.filterMap_append

theorem written_append (before after : List Event) :
    written (before ++ after) = written before ++ written after :=
  List.flatMap_append

theorem executed_eq_nil {events : List Event} (h : ∀ e ∈ events, ¬ e.IsLine) :
    executed events = [] := by
  rw [executed, List.filterMap_eq_nil_iff]
  intro e he
  cases e with
  | line line => exact absurd trivial (h _ he)
  | _ => rfl

theorem written_offered (piece : Bytes) : written (offered piece) = piece := by
  unfold offered
  split <;> simp_all [written, Event.accepted, WriteReply.accepted]

theorem executed_offered (piece : Bytes) : executed (offered piece) = [] := by
  unfold offered
  split <;> rfl

theorem offered_not_complaint (piece : Bytes) : ∀ e ∈ offered piece, ¬ e.IsComplaint := by
  intro e he
  unfold offered at he
  split at he
  · cases he
  · rw [List.mem_singleton.mp he]
    exact id

structure Turn where
  line : Bytes
  step : Step ShellError Status

namespace Shell

variable (shell : Shell)

/-- Lines executed one after another, each where the one before ended. -/
def turns : List Bytes → Session → List Turn
  | [], _ => []
  | line :: later, s =>
    let step : Step ShellError Status := shell.executeLine line s
    ⟨line, step⟩ :: turns later step.session

def afterLines (lines : List Bytes) (s : Session) : Session :=
  lines.foldl (fun s line => (shell.executeLine line s : Step ShellError Status).session) s

theorem afterLines_keeps {P : Session → Prop} {s : Session} (hs : P s)
    (hline : ∀ line s, P s → P (shell.executeLine line s : Step ShellError Status).session)
    (lines : List Bytes) : P (shell.afterLines lines s) := by
  induction lines generalizing s with
  | nil => exact hs
  | cons line later ih => exact ih (hline line s hs)

def seenOf (turn : Turn) : List Event := shell.prompting ++ .line turn.line :: turn.step.events

def shownBy (turn : Turn) : Bytes := Bytes.ofString shell.prompt ++ written turn.step.events

/-- A run that executes these lines and no others, each once and in this order, starting in a
session and going on from one line to the next. Between lines it prompts, and nothing else. -/
structure InTurn (lines : List Bytes) (start : Session) (closing : List Event)
    (run : Step ShellError Nat) : Prop where
  executed : executed run.events = lines
  events : run.events = (shell.turns lines start).flatMap shell.seenOf ++ closing
  world : run.session.world = (shell.afterLines lines start).world
  err : run.session.err = (shell.afterLines lines start).err

variable {shell} {s : Session}

theorem executed_prompting : executed shell.prompting = [] := by
  rw [prompting, executed_append, executed_offered]
  rfl

theorem written_prompting : written shell.prompting = Bytes.ofString shell.prompt := by
  rw [prompting, written_append, written_offered]
  exact List.append_nil _

theorem written_seenOf (turn : Turn) : written (shell.seenOf turn) = shell.shownBy turn := by
  rw [seenOf, written_append, written_prompting]
  rfl

theorem executed_turn (line : Bytes) {turn : List Event} (h : ∀ e ∈ turn, ¬ e.IsLine)
    (later : List Event) :
    executed (shell.prompting ++ .line line :: (turn ++ later)) = line :: executed later := by
  rw [executed_append, executed_prompting, List.nil_append]
  change line :: executed (turn ++ later) = line :: executed later
  rw [executed_append, executed_eq_nil h, List.nil_append]

theorem written_turn (line : Bytes) (turn later : List Event) :
    written (shell.prompting ++ .line line :: (turn ++ later)) =
      Bytes.ofString shell.prompt ++ (written turn ++ written later) := by
  rw [written_append, written_prompting, ← written_append]
  rfl

theorem executed_closing (failure : Option Fault) : executed (shell.closing failure) = [] := by
  cases failure with
  | none =>
    rw [closing, executed_append, executed_prompting]
    rfl
  | some fault => exact executed_prompting

theorem written_closing_none :
    written (shell.closing none) = Bytes.ofString shell.prompt ++ [newline] := by
  rw [closing, written_append, written_prompting]
  rfl

theorem prompting_not_complaint : ∀ e ∈ shell.prompting, ¬ e.IsComplaint := by
  intro e he
  rcases List.mem_append.mp he with he | he
  · exact offered_not_complaint _ e he
  · rw [List.mem_singleton.mp he]
    exact id

theorem closing_not_complaint (failure : Option Fault) :
    ∀ e ∈ shell.closing failure, ¬ e.IsComplaint := by
  cases failure with
  | some fault => exact prompting_not_complaint
  | none =>
    intro e he
    rcases List.mem_append.mp he with he | he
    · exact prompting_not_complaint e he
    · rcases List.mem_cons.mp he with rfl | he
      · exact id
      · rcases List.mem_append.mp he with he | he
        · exact offered_not_complaint _ e he
        · rw [List.mem_singleton.mp he]
          exact id

theorem InTurn.nil {closing : List Event} (h : LineShell.executed closing = [])
    (result : Except ShellError Nat) : shell.InTurn [] s closing ⟨result, closing, s⟩ where
  executed := h
  events := rfl
  world := rfl
  err := rfl

theorem InTurn.cons {line : Bytes} {later : List Bytes} {closing : List Event}
    {rest : Step ShellError Nat}
    (h : shell.InTurn later (shell.executeLine line s : Step ShellError Status).session closing
      rest) :
    shell.InTurn (line :: later) s closing
      ⟨rest.result, shell.prompting ++
        .line line :: ((shell.executeLine line s : Step ShellError Status).events ++ rest.events),
        rest.session⟩ where
  executed := by
    rw [executed_turn line (executeLine_not_line shell line s), h.executed]
  events := by simp [turns, seenOf, h.events]
  world := h.world
  err := h.err

theorem InTurn.flatMap {β : Type} (read : Event → List β) {lines : List Bytes}
    {closing : List Event} {run : Step ShellError Nat} (h : shell.InTurn lines s closing run) :
    run.events.flatMap read =
      (shell.turns lines s).flatMap (fun turn => (shell.seenOf turn).flatMap read) ++
        closing.flatMap read := by
  rw [h.events, List.flatMap_append, List.flatMap_assoc]

theorem InTurn.written {lines : List Bytes} {closing : List Event} {run : Step ShellError Nat}
    (h : shell.InTurn lines s closing run) :
    written run.events =
      (shell.turns lines s).flatMap shell.shownBy ++ LineShell.written closing := by
  have hturns : (shell.turns lines s).flatMap (fun turn => LineShell.written (shell.seenOf turn)) =
      (shell.turns lines s).flatMap shell.shownBy :=
    List.flatMap_congr fun turn _ => written_seenOf turn
  exact (h.flatMap Event.accepted).trans (congrArg (· ++ LineShell.written closing) hturns)

/-- The first line that asks to exit is the last of its run; without one, all lines are executed. -/
theorem follow_in_turn (failure : Option Fault) (lines : List Bytes) (s : Session) :
    match lines.findIdx? asksToExit with
    | some k => (shell.follow failure lines s).result = .ok 1 ∧
        shell.InTurn (lines.take (k + 1)) s [.flushed none] (shell.follow failure lines s)
    | none => (shell.follow failure lines s).result = outcome failure ∧
        shell.InTurn lines s (shell.closing failure) (shell.follow failure lines s) := by
  induction lines generalizing s with
  | nil => exact ⟨rfl, .nil (executed_closing failure) _⟩
  | cons line later ih =>
    rw [List.findIdx?_cons]
    by_cases hexit : asksToExit line = true
    · rw [if_pos hexit, follow, takeTurn_of_exit hexit]
      exact ⟨rfl, .cons (.nil rfl (.ok 1))⟩
    · rw [if_neg hexit, follow, takeTurn_of_proceed hexit]
      have hlater := ih (shell.executeLine line s : Step ShellError Status).session
      cases hk : later.findIdx? asksToExit with
      | none =>
        rw [hk] at hlater
        exact ⟨hlater.1, hlater.2.cons⟩
      | some k =>
        rw [hk] at hlater
        exact ⟨hlater.1, hlater.2.cons⟩

theorem InTurn.of_opened {lines : List Bytes} {closing : List Event} {source : Source}
    (ho : s.out.TakesAll) (h : shell.InTurn lines s.opened closing (shell.run source s.opened)) :
    shell.InTurn lines s.opened closing (shell.run source s) := by
  have hevents := run_opened_events ho shell source
  have hsession := (run_opened ho shell source).session
  exact ⟨hevents ▸ h.executed, hevents.trans h.events, hsession.world.trans h.world,
    hsession.err.trans h.err⟩

theorem run_in_turn {source : Source} {failure : Option Fault} {ls : List Bytes}
    (ho : s.out.TakesAll) (hrun : shell.run source s.opened = shell.follow failure ls s.opened) :
    let run := shell.run source s
    match ls.findIdx? asksToExit with
    | some k =>
      run.result = .ok 1 ∧ shell.InTurn (ls.take (k + 1)) s.opened [.flushed none] run ∧
        LineShell.written run.events =
          (shell.turns (ls.take (k + 1)) s.opened).flatMap shell.shownBy
    | none =>
      run.result = outcome failure ∧ shell.InTurn ls s.opened (shell.closing failure) run ∧
        LineShell.written run.events =
          (shell.turns ls s.opened).flatMap shell.shownBy ++
            LineShell.written (shell.closing failure) := by
  intro run
  have hresult : run.result = (shell.run source s.opened).result :=
    (run_opened ho shell source).result
  have hfollow := shell.follow_in_turn failure ls s.opened
  rw [← hrun, ← hresult] at hfollow
  cases hk : ls.findIdx? asksToExit with
  | some k =>
    rw [hk] at hfollow
    have hturns := InTurn.of_opened ho hfollow.2
    exact ⟨hfollow.1, hturns, hturns.written.trans (List.append_nil _)⟩
  | none =>
    rw [hk] at hfollow
    have hturns := InTurn.of_opened ho hfollow.2
    exact ⟨hfollow.1, hturns, hturns.written⟩

variable (shell) in
/-- Whatever its source, a run executes its lines in turn. A line that asks to exit is followed by a
flush, and a run that is out of lines closes as its input has ended. -/
theorem run_closes (ho : s.out.TakesAll) (source : Source) :
    ∃ closing, shell.InTurn (LineShell.executed (shell.run source s).events) s.opened closing
        (shell.run source s) ∧
      ((shell.run source s).result = .ok 1 ∧ closing = [.flushed none] ∨
        ∃ failure, (shell.run source s).result = outcome failure ∧
          closing = shell.closing failure) := by
  obtain ⟨failure, ls, hfollow⟩ : ∃ failure ls,
      shell.run source s.opened = shell.follow failure ls s.opened := by
    rcases source.first_failure with hs | ⟨before, fault, later, hs, rfl⟩
    · exact ⟨none, _, run_follows_lines hs rfl⟩
    · exact ⟨some fault, _, run_follows_wholeLines hs rfl fault later⟩
  have hrun := run_in_turn ho hfollow
  cases hk : ls.findIdx? asksToExit with
  | some k =>
    rw [hk] at hrun
    exact ⟨_, hrun.2.1.executed ▸ hrun.2.1, .inl ⟨hrun.1, rfl⟩⟩
  | none =>
    rw [hk] at hrun
    exact ⟨_, hrun.2.1.executed ▸ hrun.2.1, .inr ⟨failure, hrun.1, rfl⟩⟩

theorem run_turns (ho : s.out.TakesAll) (source : Source) :
    ∃ closing, (∀ e ∈ closing, ¬ e.IsComplaint) ∧
      shell.InTurn (LineShell.executed (shell.run source s).events) s.opened closing
        (shell.run source s) := by
  obtain ⟨closing, hturns, ⟨_, rfl⟩ | ⟨failure, _, rfl⟩⟩ := run_closes shell ho source
  · refine ⟨_, ?_, hturns⟩
    intro e he
    rw [List.mem_singleton.mp he]
    exact id
  · exact ⟨_, closing_not_complaint failure, hturns⟩

end Shell

/-- The lines through the first that asks to exit are executed, or else all of them, and nothing
that they do changes how the run ends. -/
theorem run_executes_through_exit (shell : Shell) (source : Source) (s : Session)
    (hs : NeverFails source) (ho : s.out.TakesAll) :
    let ls := lines (contents source)
    let run := shell.run source s
    match ls.findIdx? asksToExit with
    | some k =>
      run.result = .ok 1 ∧ shell.InTurn (ls.take (k + 1)) s.opened [.flushed none] run ∧
        written run.events = (shell.turns (ls.take (k + 1)) s.opened).flatMap shell.shownBy
    | none =>
      run.result = .ok 0 ∧ shell.InTurn ls s.opened (shell.closing none) run ∧
        written run.events = (shell.turns ls s.opened).flatMap shell.shownBy ++
          (Bytes.ofString shell.prompt ++ [newline]) := by
  intro ls run
  have hfollow : shell.run source s.opened = shell.follow none ls s.opened :=
    Shell.run_follows_lines hs rfl
  have hrun := Shell.run_in_turn ho hfollow
  rw [Shell.written_closing_none] at hrun
  exact hrun

/-- The input comes in three pieces and is asked for once more after an interruption. -/
theorem run_executes_through_exit_in_pieces :
    let source : Source := [.bytes 103 (Bytes.ofString "et A\nex"), .interrupted, .bytes 105
      (Bytes.ofString "t 0\npid\n")]
    let s : Session := ⟨Machine.world [], .accepting, .limited 0 .noSpace⟩
    NeverFails source ∧ s.out.TakesAll ∧ ((Shell.mk "$ " .plain).run source s).result = .ok 1 ∧
      executed ((Shell.mk "$ " .plain).run source s).events =
        [Bytes.ofString "get A\n", Bytes.ofString "exit 0\n"] := by
  intro source s
  have hs : NeverFails source := by simp [NeverFails, source]
  have ho : s.out.TakesAll := Channel.accepting_takesAll
  have h := run_executes_through_exit (Shell.mk "$ " .plain) source s hs ho
  have hk : (lines (contents source)).findIdx? asksToExit = some 1 := by decide
  have hlines : (lines (contents source)).take 2 =
      [Bytes.ofString "get A\n", Bytes.ofString "exit 0\n"] := by decide
  simp only [hk] at h
  exact ⟨hs, ho, h.1, h.2.1.executed.trans hlines⟩

/-- A read that fails after some bytes leaves no trace of the line that they break off. Only lines
that ended before are executed, and if one of them asks to exit, the failure is never met. -/
theorem run_drops_line_cut_short (shell : Shell) (data : Bytes) (offset : Nat)
    (before later : Source) (fault : Fault) (s : Session) (hs : NeverFails before)
    (hdata : contents before = data.take offset) (ho : s.out.TakesAll) :
    let ls := endedBefore offset (lines data)
    let run := shell.run (before ++ .failed fault :: later) s
    match ls.findIdx? asksToExit with
    | some k =>
      run.result = .ok 1 ∧ shell.InTurn (ls.take (k + 1)) s.opened [.flushed none] run ∧
        written run.events = (shell.turns (ls.take (k + 1)) s.opened).flatMap shell.shownBy
    | none =>
      run.result = .error (.read fault) ∧ shell.InTurn ls s.opened shell.prompting run ∧
        written run.events =
          (shell.turns ls s.opened).flatMap shell.shownBy ++ Bytes.ofString shell.prompt := by
  intro ls run
  have hls : ls = wholeLines (contents before) := by rw [hdata, ← endedBefore_lines]
  have hfollow : shell.run (before ++ .failed fault :: later) s.opened =
      shell.follow (some fault) ls s.opened := by
    rw [hls, Shell.run_follows_wholeLines hs rfl]
  have hrun := Shell.run_in_turn ho hfollow
  have hclosing : written (shell.closing (some fault)) = Bytes.ofString shell.prompt :=
    Shell.written_prompting
  rw [hclosing] at hrun
  exact hrun

/-- The input would go on with the rest of a path. -/
theorem run_drops_line_cut_in_path :
    let data := Bytes.ofString "get A\nrmdir /tmp/x\nexit\n"
    let before : Source := [.bytes 103 (Bytes.ofString "et A\nr"), .interrupted, .bytes 109
      (Bytes.ofString "dir /")]
    let s : Session := ⟨Machine.world [], .accepting, .accepting⟩
    let run := (Shell.mk "$ " .plain).run (before ++ [.failed .isDirectory]) s
    NeverFails before ∧ contents before = data.take 13 ∧ s.out.TakesAll ∧
      run.result = .error (.read .isDirectory) ∧
      executed run.events = [Bytes.ofString "get A\n"] := by
  intro data before s run
  have hs : NeverFails before := by simp [NeverFails, before]
  have hdata : contents before = data.take 13 := by decide
  have ho : s.out.TakesAll := Channel.accepting_takesAll
  have h := run_drops_line_cut_short (Shell.mk "$ " .plain) data 13 before [] .isDirectory s hs
    hdata ho
  have hls : endedBefore 13 (lines data) = [Bytes.ofString "get A\n"] := by decide
  have hk : [Bytes.ofString "get A\n"].findIdx? asksToExit = none := by decide
  simp only [hls, hk] at h
  exact ⟨hs, hdata, ho, h.1, h.2.1.executed⟩

end LineShell
