import LineShell.CommandLine
import LineShell.Proofs.LoopEndings

/-!
# What the exit status tells

Startup arguments are looked at before anything else happens. If they ask for nothing there is, one
line says so, and nothing is read, run, written or recorded. If they ask for a prompt, the loop runs
with it, and the status tells how the loop ended: with the end of the input, or in any other way.
Whatever happened to a command in between has no part in it.
-/
namespace LineShell

open Bytes (lines)
open Source (NeverFails)

/-- Startup arguments and the prompt they ask for: the usual one, or the one behind the flag. -/
inductive Asks : List String → String → Prop where
  | nothing : Asks [] "308sh> "
  | prompt (text : String) : Asks ["-p", text] text

section
variable {arguments : List String} {prompt : String}

theorem parse_of_asks (h : Asks arguments prompt) : Options.parse arguments = .ok ⟨prompt⟩ := by
  cases h with
  | nothing => rfl
  | prompt text => rfl

theorem parse_of_unasked (h : ∀ prompt, ¬ Asks arguments prompt) :
    Options.parse arguments = .error (if arguments.length = 2 then .unknown else .count) := by
  unfold Options.parse
  split
  · exact absurd .nothing (h _)
  · next flag text =>
    have hflag : flag ≠ "-p" := by
      rintro rfl
      exact h text (.prompt text)
    rw [if_neg hflag]
    rfl
  · next hnil htwo =>
    have hlength : arguments.length ≠ 2 := by
      intro hlength
      obtain ⟨flag, text, rfl⟩ := List.length_eq_two.mp hlength
      exact htwo flag text rfl
    rw [if_neg hlength]

end

namespace Ending

def status : Ending → Nat
  | endOfInput => 0
  | exitLine | readFailed _ | writeFailed _ => 1

/-- What is told at the very end: nothing, or the failure of the loop's own read or write. -/
def told (ending : Ending) : List Event :=
  match ending.result with
  | .ok _ => []
  | .error error => [.complained (Bytes.ofString ("sh308: " ++ error.message ++ "\n")) .whole]

theorem told_not_line (ending : Ending) : ∀ e ∈ ending.told, ¬ e.IsLine := by
  intro e he
  cases ending with
  | endOfInput | exitLine => cases he
  | readFailed | writeFailed =>
    rw [List.mem_singleton.mp he]
    exact id

theorem status_eq_zero_iff {ending : Ending} : ending.status = 0 ↔ ending = .endOfInput := by
  cases ending <;> simp [status]

theorem status_eq_one_iff {ending : Ending} :
    ending.status = 1 ↔ ending = .exitLine ∨ ∃ fault, ending = .readFailed fault ∨
      ending = .writeFailed fault := by
  cases ending <;> simp [status]

end Ending

section
variable {ε : Type} {s : Session}

theorem leave_step (h : s.err.TakesAll) (text : String) (status : Nat) :
    (CommandLine.leave text status : Act ε Nat) s =
      ⟨.ok status, [.complained (Bytes.ofString (text ++ "\n")) .whole],
        { s with err := (s.err.write (Bytes.ofString (text ++ "\n"))).2 }⟩ := by
  have hne : (Bytes.ofString (text ++ "\n")).isEmpty = false := by
    have hnewline : Bytes.ofString "\n" ≠ [] := by decide
    simp [Bytes.ofString_append, hnewline]
  have hcomplain := Act.complain_step (Bytes.ofString (text ++ "\n")) s
  rw [hne, h.write_whole] at hcomplain
  have hattempt : ((Act.complain (Bytes.ofString (text ++ "\n"))).attempt s : Step ε _) =
      ⟨.ok (.ok ()), [.complained (Bytes.ofString (text ++ "\n")) .whole],
        { s with err := (s.err.write (Bytes.ofString (text ++ "\n"))).2 }⟩ := by
    rw [Act.attempt, hcomplain]
    rfl
  unfold CommandLine.leave
  rw [Act.bind_ok (congrArg Step.result hattempt), hattempt]
  rfl

variable {arguments : List String} {terminal : Bool} {source : Source}

theorem run_of_refused {error : ArgumentError} (h : Options.parse arguments = .error error) :
    (CommandLine.run arguments terminal source : Act ε Nat) s =
      CommandLine.leave error.message 0 s := by
  unfold CommandLine.run
  rw [h]

variable {options : Options}

def conclude : Except ShellError Nat → Act ε Nat
  | .ok code => pure code
  | .error error => CommandLine.leave ("sh308: " ++ error.message) 1

theorem run_of_taken (h : Options.parse arguments = .ok options) :
    let loop := Shell.run ⟨options.prompt, .ofTerminal terminal s.world.vars⟩ source s
    let last : Step ε Nat := conclude loop.result loop.session
    (CommandLine.run arguments terminal source : Act ε Nat) s =
      ⟨last.result, loop.events ++ last.events, last.session⟩ := by
  intro loop last
  let shell : Shell := ⟨options.prompt, .ofTerminal terminal s.world.vars⟩
  have hloop : ((shell.run source).attempt s : Step ε _) =
      ⟨.ok loop.result, loop.events, loop.session⟩ :=
    rfl
  unfold CommandLine.run
  rw [h]
  dsimp only
  rw [Act.bind_ok rfl]
  dsimp only [Act.world]
  rw [Act.bind_ok (congrArg Step.result hloop), hloop]
  dsimp only [last]
  cases loop.result with
  | ok code => simp [conclude]
  | error error => rfl

theorem conclude_step (h : s.err.TakesAll) (ending : Ending) :
    ∃ err : Channel, (conclude ending.result : Act ε Nat) s =
      ⟨.ok ending.status, ending.told, { s with err := err }⟩ := by
  cases ending with
  | endOfInput | exitLine => exact ⟨s.err, rfl⟩
  | readFailed | writeFailed => exact ⟨_, leave_step h _ 1⟩

theorem run_keeps_err_takesAll (shell : Shell) (source : Source) (h : s.err.TakesAll) :
    (shell.run source s).session.err.TakesAll :=
  (run_madeOf shell source).keeps_err (P := Channel.TakesAll) (fun _ piece hc => hc.write piece) h

end

theorem run_succeeds_iff {shell : Shell} {source : Source} {s : Session} (ho : s.out.TakesAll) :
    (shell.run source s).result = .ok 0 ↔
      NeverFails source ∧ ∀ line ∈ lines source.contents, asksToExit line = false := by
  rcases source.first_failure with hs | ⟨before, fault, later, hs, rfl⟩
  · have hturns := Shell.run_in_turn ho (shell.run_follows_lines hs rfl)
    cases hk : (lines source.contents).findIdx? asksToExit with
    | some k =>
      simp only [hk] at hturns
      obtain ⟨hlt, hexit, _⟩ := List.findIdx?_eq_some_iff_getElem.mp hk
      constructor
      · intro h
        cases hturns.1.symm.trans h
      · rintro ⟨_, hnone⟩
        cases hexit.symm.trans (hnone _ (List.getElem_mem hlt))
    | none =>
      simp only [hk] at hturns
      constructor
      · intro _
        exact ⟨hs, List.findIdx?_eq_none_iff.mp hk⟩
      · intro _
        exact hturns.1
  · -- the source fails, unless a line asks to exit before that
    have hturns := Shell.run_in_turn ho (shell.run_follows_wholeLines hs rfl fault later)
    constructor
    · intro h
      cases hk : (Bytes.wholeLines before.contents).findIdx? asksToExit with
      | some k =>
        simp only [hk] at hturns
        cases hturns.1.symm.trans h
      | none =>
        simp only [hk] at hturns
        cases hturns.1.symm.trans h
    · rintro ⟨hnever, _⟩
      exact absurd (List.mem_append_right before List.mem_cons_self) (hnever fault)

/-- The program does what its loop does, adds what is told at the end, and ends with the status. -/
structure ProgramEnds {ε : Type} (shell : Shell) (source : Source) (s : Session)
    (step : Step ε Nat) (ending : Ending) (t : Session) : Prop where
  result : step.result = .ok ending.status
  events : step.events = (shell.run source s).events ++ ending.told
  world : step.session.world = t.world
  out : step.session.out = t.out

section
variable {ε : Type} {arguments : List String} {prompt : String} {terminal : Bool} {source : Source}
  {s t : Session} {lines : List Bytes} {ending : Ending}

def refusal (arguments : List String) : String :=
  if arguments.length = 2 then "Invalid arguments\n" else "Invalid number of arguments\n"

theorem refusal_eq (arguments : List String) :
    (if arguments.length = 2 then ArgumentError.unknown else .count).message ++ "\n" =
      refusal arguments := by
  unfold refusal
  by_cases htwo : arguments.length = 2
  · rw [if_pos htwo, if_pos htwo]
    rfl
  · rw [if_neg htwo, if_neg htwo]
    rfl

theorem program_refuses (h : s.err.TakesAll) (hnone : ∀ prompt, ¬ Asks arguments prompt) :
    ∃ err : Channel, (CommandLine.run arguments terminal source : Act ε Nat) s =
      ⟨.ok 0, [.complained (Bytes.ofString (refusal arguments)) .whole], { s with err := err }⟩ := by
  have hrun : (CommandLine.run arguments terminal source : Act ε Nat) s = _ :=
    run_of_refused (parse_of_unasked hnone)
  rw [leave_step h, refusal_eq] at hrun
  exact ⟨_, hrun⟩

theorem program_ends (h : s.err.TakesAll) (hasks : Asks arguments prompt)
    (hends : Shell.Ends ⟨prompt, .ofTerminal terminal s.world.vars⟩ source s lines ending t) :
    ProgramEnds ⟨prompt, .ofTerminal terminal s.world.vars⟩ source s
      (CommandLine.run arguments terminal source s : Step ε Nat) ending t := by
  obtain ⟨hresult, _, hsession⟩ := hends.run
  have herr := run_keeps_err_takesAll ⟨prompt, .ofTerminal terminal s.world.vars⟩ source h
  obtain ⟨err, hlast⟩ := conclude_step (ε := ε) herr ending
  have hrun : (CommandLine.run arguments terminal source s : Step ε Nat) = _ :=
    run_of_taken (parse_of_asks hasks)
  rw [hresult, hlast, hsession] at hrun
  rw [hrun]
  exact ⟨rfl, rfl, rfl, rfl⟩

end

/-- Refused startup arguments are told of, and that is all that happens. With a prompt to run with,
the status is 0 when the loop ends with its input and 1 when it ends in another way; a failure of
the loop's own is told of once it has ended. How commands and children fare does not show: where the
output takes everything, the input alone tells the status. -/
theorem exit_status_tells_how_the_loop_ends {ε : Type} (arguments : List String) (terminal : Bool)
    (source : Source) (s : Session) (herr : s.err.TakesAll) :
    let step : Step ε Nat := CommandLine.run arguments terminal source s
    ((∀ prompt, ¬ Asks arguments prompt) →
      step.result = .ok 0 ∧
      step.events = [.complained (Bytes.ofString (refusal arguments)) .whole] ∧
      step.session.world = s.world ∧ step.session.out = s.out) ∧
    ∀ prompt, Asks arguments prompt →
      let shell : Shell := ⟨prompt, .ofTerminal terminal s.world.vars⟩
      (∃ lines ending t, shell.Ends source s lines ending t) ∧
      (∀ lines ending t, shell.Ends source s lines ending t →
        ProgramEnds shell source s step ending t ∧ executed step.events = lines ∧
        (step.result = .ok 0 ↔ ending = .endOfInput) ∧
        (step.result = .ok 1 ↔ ending = .exitLine ∨ ∃ fault, ending = .readFailed fault ∨
          ending = .writeFailed fault)) ∧
      (s.out.TakesAll → (step.result = .ok 0 ↔
        NeverFails source ∧ ∀ line ∈ Bytes.lines source.contents, asksToExit line = false)) := by
  intro step
  constructor
  · intro hnone
    obtain ⟨err, hrun⟩ : ∃ err : Channel, step = _ := program_refuses herr hnone
    rw [hrun]
    exact ⟨rfl, rfl, rfl, rfl⟩
  · intro prompt hasks shell
    obtain ⟨lines, ending, t, hends⟩ := shell.ends_exists source s
    have hprogram : ProgramEnds shell source s step ending t := program_ends herr hasks hends
    refine ⟨⟨lines, ending, t, hends⟩, ?_, ?_⟩
    · intro lines' ending' t' hends'
      obtain ⟨rfl, rfl, rfl⟩ := hends.unique hends'
      refine ⟨hprogram, ?_, ?_, ?_⟩
      · rw [hprogram.events, executed_append, hends.run.2.1,
          executed_eq_nil ending.told_not_line, List.append_nil]
      · rw [hprogram.result, Except.ok.injEq, Ending.status_eq_zero_iff]
      · rw [hprogram.result, Except.ok.injEq, Ending.status_eq_one_iff]
    · intro ho
      rw [← run_succeeds_iff ho, hends.run.1, hprogram.result, Except.ok.injEq,
        Ending.status_eq_zero_iff]
      constructor
      · rintro rfl
        rfl
      · intro hresult
        exact Ending.result_injective hresult

/-- A flag without its prompt, in front of input that would exit; an empty prompt, with a child that
fails and a read that does; and no arguments, with a command that is refused and a child that fails.
-/
theorem exit_status_tells_of_failed_read :
    let s : Session := ⟨Machine.world [("PATH", "/bin")], .accepting, .accepting⟩
    let refused : Step Unit Nat :=
      CommandLine.run ["-p"] false [.bytes 101 (Bytes.ofString "xit\n")] s
    let source : Source := [.bytes 102 (Bytes.ofString "alse\nex"), .failed .isDirectory]
    let broken : Step Unit Nat := CommandLine.run ["-p", ""] false source s
    let quiet : Step Unit Nat :=
      CommandLine.run [] false [.bytes 120 (Bytes.ofString "\nfalse 9\nset = =")] s
    s.err.TakesAll ∧ s.out.TakesAll ∧
    refused.result = .ok 0 ∧
    refused.events = [.complained (Bytes.ofString "Invalid number of arguments\n") .whole] ∧
    broken.result = .ok 1 ∧ executed broken.events = [Bytes.ofString "false\n"] ∧
    quiet.result = .ok 0 := by
  intro s refused source broken quiet
  have herr : s.err.TakesAll := Channel.accepting_takesAll
  have ho : s.out.TakesAll := Channel.accepting_takesAll
  have hnone : ∀ prompt, ¬ Asks ["-p"] prompt := by
    intro prompt hasks
    cases hasks
  obtain ⟨hresult, hevents, _⟩ := (exit_status_tells_how_the_loop_ends (ε := Unit) ["-p"] false
    [.bytes 101 (Bytes.ofString "xit\n")] s herr).1 hnone
  have hends : Shell.Ends ⟨"", .ofTerminal false s.world.vars⟩ source s [Bytes.ofString "false\n"]
      (.readFailed .isDirectory) _ :=
    .next (by decide +kernel) (by decide +kernel) (by decide)
      (.unread (by decide +kernel) (by decide +kernel))
  obtain ⟨_, hbroken, _⟩ := (exit_status_tells_how_the_loop_ends (ε := Unit) ["-p", ""] false
    source s herr).2 "" (.prompt "")
  obtain ⟨_, hexecuted, _, hone⟩ := hbroken _ _ _ hends
  obtain ⟨_, _, hquiet⟩ := (exit_status_tells_how_the_loop_ends (ε := Unit) [] false
    [.bytes 120 (Bytes.ofString "\nfalse 9\nset = =")] s herr).2 _ .nothing
  refine ⟨herr, ho, hresult, hevents, ?_, hexecuted, ?_⟩
  · exact hone.mpr (.inr ⟨.isDirectory, .inl rfl⟩)
  · refine (hquiet ho).mpr ⟨by simp [NeverFails], by decide⟩

end LineShell
