import LineShell.Proofs.CommandEffects
import LineShell.Proofs.OutputOrder
import LineShell.Proofs.TokenGrammar

/-!
# Output before children

A child may write where the shell's output goes. Whatever the output channel has refused before, a
child is started only where the channel was last asked for a flush, and the flush went well; so the
channel holds nothing that could come after what the child writes. A flush that fails is told like
any other failure, and nothing is started.
-/
namespace LineShell

open Act (MadeOf)
open Event (IsOutput IsStart IsReport)
open Bytes (newline)

/-- The last that the output channel was asked for is a flush, and it went well. -/
def Delivered (events : List Event) : Prop :=
  ∃ earlier later, events = earlier ++ .flushed none :: later ∧ ∀ e ∈ later, ¬ IsOutput e

/-- No child is started, nor is the system asked for one, over undelivered output. -/
def StartsDelivered (events : List Event) : Prop :=
  ∀ before e after, events = before ++ e :: after → IsStart e → Delivered before

theorem stillHeld_append (release : Release) (moment : Nat) (held : Bytes)
    (before after : List Event) :
    stillHeld release moment held (before ++ after) =
      stillHeld release (moment + before.length) (stillHeld release moment held before) after := by
  induction before generalizing moment held with
  | nil => rfl
  | cons event before ih =>
    rw [List.cons_append, stillHeld, ih, stillHeld, List.length_cons, Nat.add_right_comm,
      Nat.add_assoc]

namespace Delivered

variable {events : List Event}

theorem nothing_held (h : Delivered events) (release : Release) (moment : Nat) (held : Bytes) :
    stillHeld release moment held events = [] := by
  obtain ⟨earlier, later, rfl, hlater⟩ := h
  have hothers := FlushesFirst.of_others hlater
  rw [stillHeld_append, stillHeld]
  refine List.suffix_nil.mp (hothers.stillHeld_suffix ?_ release _)
  simp [Event.releases]

theorem prepend (h : Delivered events) (before : List Event) : Delivered (before ++ events) := by
  obtain ⟨earlier, later, rfl, hlater⟩ := h
  exact ⟨before ++ earlier, later, (List.append_assoc _ _ _).symm, hlater⟩

end Delivered

namespace StartsDelivered

variable {events before after : List Event}

theorem of_no_start (h : ∀ e ∈ events, ¬ IsStart e) : StartsDelivered events := by
  rintro before e after rfl he
  exact absurd he (h e (by simp))

theorem append (h : StartsDelivered before) (h' : StartsDelivered after) :
    StartsDelivered (before ++ after) := by
  intro front e back heq he
  rcases List.append_eq_append_iff.mp heq with ⟨middle, rfl, hafter⟩ | ⟨middle, rfl, hmiddle⟩
  · exact (h' middle e back hafter he).prepend before
  · cases middle with
    | nil => simpa using (h' [] e back hmiddle.symm he).prepend front
    | cons first middle =>
      obtain ⟨rfl, -⟩ := List.cons.inj hmiddle
      exact h front e middle rfl he

theorem of_flushed (h : ∀ e ∈ events, ¬ IsOutput e) :
    StartsDelivered (.flushed none :: events) := by
  intro before e after heq he
  cases before with
  | nil =>
    obtain ⟨rfl, -⟩ := List.cons.inj heq
    exact absurd he id
  | cons first before =>
    obtain ⟨rfl, rfl⟩ := List.cons.inj heq
    exact ⟨[], before, rfl, fun e he => h e (List.mem_append_left _ he)⟩

end StartsDelivered

def DeliversFirst {ε α : Type} (act : Act ε α) : Prop := ∀ s, StartsDelivered (act s).events

namespace DeliversFirst

variable {ε δ α β : Type}

theorem of_madeOf {act : Act ε α} (h : MadeOf (¬ IsStart ·) True act) : DeliversFirst act :=
  fun s => .of_no_start (h.events s)

theorem bind {f : Act ε α} {g : α → Act ε β} (hf : DeliversFirst f) (hg : ∀ a, DeliversFirst (g a)) :
    DeliversFirst (f >>= g) := by
  intro s
  rcases Act.events_bind f g s with hfirst | ⟨a, _, hboth⟩
  · exact hfirst ▸ hf s
  · exact hboth ▸ (hf s).append (hg a _)

theorem attempt {act : Act ε α} (h : DeliversFirst act) : DeliversFirst (act.attempt : Act δ _) := h

end DeliversFirst

theorem execute_delivers (list : TokenList) : DeliversFirst (execute list) := by
  intro s
  cases hname : list.command? with
  | none =>
    rw [execute_of_empty hname]
    exact .of_no_start fun e he => nomatch he
  | some name =>
    cases hb : Builtin.ofName? name with
    | some builtin =>
      rw [execute_of_builtin hname hb]
      have hrecord : StartsDelivered [.record (.builtin (Utf8.lossy name))] :=
        .of_no_start (by simp [IsStart])
      exact hrecord.append (.of_no_start ((builtin_starts_nothing builtin list).events s))
    | none =>
      rw [execute_of_external hname hb]
      cases hflush : s.out.flush.1 with
      | some fault =>
        rw [runExternal_of_unflushed hflush]
        exact .of_no_start (by simp [IsStart])
      | none =>
        rw [runExternal_of_flushed hflush]
        exact .of_flushed fun e he => ((afterFlush_quiet name list).events _ e he).not_output

section
variable (shell : Shell)

theorem executeLine_delivers {ε : Type} (line : Bytes) :
    DeliversFirst (shell.executeLine line : Act ε Status) := by
  refine .bind (.attempt (execute_delivers _)) fun outcome => ?_
  cases outcome with
  | ok status => exact .of_madeOf (.pure _)
  | error error =>
    have hreport := report_madeOf (ε := ε) shell (Utf8.lossy ((tokenize line).command?.getD []))
      error
    exact .of_madeOf (.bind (hreport.mono (fun _ => IsReport.not_start) False.elim) fun _ =>
      .pure _)

theorem run_delivers (source : Source) : DeliversFirst (shell.run source) :=
  run_has shell (P := DeliversFirst)
    (fun hown => .of_madeOf (hown.mono (fun _ => Event.IsOwn.not_start) False.elim)) .bind
    (executeLine_delivers shell) source

theorem turns_deliver (lines : List Bytes) (s : Session) :
    StartsDelivered ((shell.turns lines s).flatMap (·.step.events)) := by
  induction lines generalizing s with
  | nil => exact .of_no_start fun e he => nomatch he
  | cons line later ih => exact (executeLine_delivers shell line s).append (ih _)

end

section
variable {list : TokenList} {name : Bytes} {fault : Fault} {s : Session}

theorem execute_of_unflushed (hname : list.command? = some name)
    (hb : Builtin.ofName? name = none) (hflush : s.out.flush.1 = some fault) :
    execute list s =
      ⟨.error (.io fault), [.flushed (some fault)], { s with out := s.out.flush.2 }⟩ := by
  rw [execute_of_external hname hb, runExternal_of_unflushed hflush]

theorem executeLine_of_unflushed (shell : Shell) {line : Bytes}
    (hname : (tokenize line).command? = some name) (hb : Builtin.ofName? name = none)
    (hflush : s.out.flush.1 = some fault) :
    let step : Step ShellError Status := shell.executeLine line s
    let text := Bytes.ofString
      (shell.highlighter.apply (Utf8.lossy name ++ ": IO error: " ++ fault.message))
    step.result = .ok .proceed ∧ step.session.world = s.world ∧
      (∀ e ∈ step.events, ¬ IsStart e) ∧
      complaints step.events =
        text :: if (s.err.write text).1 = .whole then [[newline]] else [] := by
  intro step text
  have hrun := execute_of_unflushed hname hb hflush
  have hstep : step = _ := executeLine_of_error shell (congrArg Step.result hrun)
  rw [hrun, hname, Option.getD_some] at hstep
  have hreport := report_madeOf (ε := ShellError) shell (Utf8.lossy name) (.io fault)
  refine ⟨by rw [hstep], ?_, ?_, ?_⟩
  · rw [hstep]
    exact hreport.world_eq _
  · rw [hstep]
    intro e he
    rcases List.mem_cons.mp he with rfl | he
    · exact id
    · exact (hreport.events _ e he).not_start
  · have hmessage : Utf8.lossy name ++ ": " ++ (CommandError.io fault).message =
        Utf8.lossy name ++ ": IO error: " ++ fault.message := by
      have hwords : ": IO error: " = ": " ++ "IO error: " := by decide
      rw [CommandError.message, hwords, String.append_assoc, String.append_assoc,
        String.append_assoc]
    have htext := complaints_report (ε := ShellError) shell (Utf8.lossy name) (.io fault)
      { s with out := s.out.flush.2 }
    rw [hmessage] at htext
    rw [hstep]
    exact htext

end

/-- On any channel, whatever it refuses, the last that it was asked for before a child is started is
a flush that went well; so it holds nothing then, however it lets go of its bytes. A launch whose
flush fails neither starts nor changes anything, and the failure is told as a diagnostic. -/
theorem children_start_over_delivered_output (shell : Shell) (s : Session) :
    (∀ source before e after, (shell.run source s).events = before ++ e :: after → IsStart e →
      Delivered before ∧ ∀ release held, stillHeld release 0 held before = []) ∧
    (∀ lines before e after,
      (shell.turns lines s).flatMap (·.step.events) = before ++ e :: after → IsStart e →
        Delivered before ∧ ∀ release held, stillHeld release 0 held before = []) ∧
    (∀ line name arguments fault, Reads line (name :: arguments) →
      Builtin.ofName? name = none → s.out.flush.1 = some fault →
      let step : Step ShellError Status := shell.executeLine line s
      let text := Bytes.ofString
        (shell.highlighter.apply (Utf8.lossy name ++ ": IO error: " ++ fault.message))
      (execute (tokenize line) s).result = .error (.io fault) ∧ step.result = .ok .proceed ∧
        step.session.world = s.world ∧ (∀ e ∈ step.events, ¬ IsStart e) ∧
        complaints step.events =
          text :: if (s.err.write text).1 = .whole then [[newline]] else []) := by
  refine ⟨?_, ?_, ?_⟩
  · intro source before e after heq he
    have h := run_delivers shell source s before e after heq he
    exact ⟨h, fun release held => h.nothing_held release 0 held⟩
  · intro lines before e after heq he
    have h := turns_deliver shell lines s before e after heq he
    exact ⟨h, fun release held => h.nothing_held release 0 held⟩
  · intro line name arguments fault hline hb hflush step text
    have hname := command_of_reads hline
    refine ⟨?_, executeLine_of_unflushed shell hname hb hflush⟩
    rw [execute_of_unflushed hname hb hflush]

/-- The first flush goes well and no other, so of two children one is started. -/
theorem first_child_starts_over_delivered_output :
    let out : Channel :=
      .answering ⟨fun _ _ => .whole, fun calls => if calls = [] then none else some .noSpace⟩ []
    let s : Session := ⟨Machine.world [("PATH", "/bin")], out, .accepting⟩
    let shell := Shell.mk "$ " .plain
    let command := Bytes.ofString "true"
    let t := shell.afterLines [command] s
    (∃ before after, (shell.turns [command, command] s).flatMap (·.step.events) =
      before ++ .started [command] s.world.vars :: after ∧ Delivered before) ∧
    Reads command [command] ∧ Builtin.ofName? command = none ∧ t.out.flush.1 = some .noSpace ∧
    (execute (tokenize command) t).result = .error (.io .noSpace) := by
  intro out s shell command t
  have hstarted : .started [command] s.world.vars ∈
      (shell.turns [command, command] s).flatMap (·.step.events) := by
    decide +kernel
  obtain ⟨before, after, heq⟩ := List.append_of_mem hstarted
  have hline : Reads command [command] := reads_iff_tokens.mpr (by decide)
  have hb : Builtin.ofName? command = none := by decide
  have hflush : t.out.flush.1 = some .noSpace := by decide +kernel
  obtain ⟨_, hturns, _⟩ := children_start_over_delivered_output shell s
  obtain ⟨_, _, hfails⟩ := children_start_over_delivered_output shell t
  refine ⟨⟨before, after, heq, ?_⟩, hline, hb, hflush, ?_⟩
  · exact (hturns _ _ _ _ heq (Event.started_isStart _ _)).1
  · exact (hfails _ _ _ _ hline hb hflush).1

end LineShell
