import LineShell.Proofs.ArgumentVectors
import LineShell.Proofs.LoopEndings
import LineShell.Proofs.Rearrangements
import LineShell.Proofs.Refusals
import LineShell.Proofs.SoundStore

/-!
# What commands leave alone

Two commands touch the state of the shell, and each its own part of it: `cd` the working directory
and `PWD`, `set` the variable that it names. A child may rearrange the file tree, and the directory
that the shell sits in may get another name that way, or none; it stays the same directory.
-/
namespace LineShell

def Step.Starts {ε α : Type} (step : Step ε α) : Prop :=
  ∃ argv vars, .started argv vars ∈ step.events

/-- A program that the tokens ask for has run, and the world is as it was but for what the program
did to the file tree and read of its input. Who sat in a directory sits in it still. -/
def RanIn (list : TokenList) (w after : World) : Prop :=
  ∃ name arguments script input, list.tokens = name :: arguments ∧
    Builtin.ofName? name = none ∧ w.exec name arguments = .ok script ∧
    let started := { w with nextPid := w.nextPid + 1 }
    after = { started.rearranged (script.changes started) with childInput := input }

/-- What one command leaves alone of the world that it finds. Where a child has run, all that has
changed is its doing. Where none has, only the working directory and the variables can have changed:
the first by `cd`, one variable by the command that owns it, and only if all went well. -/
structure Frame (list : TokenList) (w : World) (step : Step CommandError Status) : Prop where
  child : step.Starts → RanIn list w step.session.world
  rest : ¬ step.Starts →
    step.session.world =
      { w with cwd := step.session.world.cwd, vars := step.session.world.vars }
  directory : ¬ step.Starts → step.session.world.cwd ≠ w.cwd →
    list.command? = some (Bytes.ofString "cd")
  binding : step.session.world.vars ≠ w.vars →
    (∃ status, step.result = .ok status) ∧
    ∃ name, step.session.world.vars.erase name = w.vars.erase name ∧
      (list.command? = some (Bytes.ofString "cd") ∧ name = Environment.pwd ∨
        list.command? = some (Bytes.ofString "set") ∧ list.get? 1 = some name)

section
variable {list : TokenList} {s : Session}

theorem execute_ranIn (h : (execute list s).Starts) :
    RanIn list s.world (execute list s).session.world := by
  obtain ⟨argv, vars, hstarted⟩ := h
  obtain ⟨_, _, hflush, name, arguments, script, htokens, hb, hexec⟩ := execute_started hstarted
  obtain ⟨_, hworld⟩ := execute_seen htokens hb hflush
  obtain ⟨input, hlived⟩ :=
    World.live_rearranges script { s.world with nextPid := s.world.nextPid + 1 }
  rw [hexec] at hworld
  exact ⟨name, arguments, script, input, htokens, hb, hexec, hworld.trans hlived⟩

theorem ok_of_bindingOf {step : Step CommandError Status} {v : Variable}
    (h : bindingOf list step = some v) : ∃ status, step.result = .ok status := by
  cases hresult : step.result with
  | ok status => exact ⟨status, rfl⟩
  | error error =>
    rw [bindingOf_of_error hresult] at h
    cases h

theorem execute_frame (list : TokenList) (s : Session) : Frame list s.world (execute list s) where
  child := execute_ranIn
  rest := by
    intro hnone
    cases execute_effect list s with
    | still _ world => rw [world]
    | bound v _ _ _ _ _ world => rw [world]
    | moved target w current _ _ move _ world =>
      obtain ⟨place, _, rfl⟩ := World.moveTo_eq move
      rw [world]
    | strayed target w fault _ _ move _ world =>
      obtain ⟨place, _, rfl⟩ := World.moveTo_eq move
      rw [world]
    | ran name arguments script _ _ _ started _ => exact absurd ⟨_, _, started⟩ hnone
  directory := by
    intro hnone hmoved
    cases execute_effect list s with
    | still _ world => exact absurd (congrArg World.cwd world) hmoved
    | bound v _ _ _ _ _ world => exact absurd (congrArg World.cwd world) hmoved
    | moved target w current _ command _ _ _ => exact command
    | strayed target w fault _ command _ _ _ => exact command
    | ran name arguments script _ _ _ started _ => exact absurd ⟨_, _, started⟩ hnone
  binding := by
    intro hchanged
    cases execute_effect list s with
    | still _ world => exact absurd (congrArg World.vars world) hchanged
    | bound v made command argument _ _ world =>
      refine ⟨ok_of_bindingOf made, v.name, ?_, .inr ⟨command, argument⟩⟩
      rw [world]
      exact Variables.erase_set _ _ _
    | moved target w current made command move _ world =>
      refine ⟨ok_of_bindingOf made, Environment.pwd, ?_, .inl ⟨command, rfl⟩⟩
      rw [world]
      dsimp only
      rw [World.moveTo_vars move]
      exact Variables.erase_set _ _ _
    | strayed target w fault _ _ move _ world =>
      rw [world] at hchanged
      exact absurd (World.moveTo_vars move) hchanged
    | ran name arguments script _ _ _ _ world =>
      rw [world] at hchanged
      exact absurd (World.live_vars script _) hchanged

end

namespace Variables

variable {vars after : Variables} {name other : Bytes}

theorem valueOf?_erase (vars : Variables) (h : other ≠ name) :
    (vars.erase name).valueOf? other = vars.valueOf? other := by
  induction vars with
  | nil => rfl
  | cons v vars ih =>
    unfold valueOf? at ih ⊢
    by_cases hv : v.name = name
    · have hother : v.name ≠ other := fun heq => h (heq.symm.trans hv)
      simpa [erase, hv, hother, Ne.symm h] using ih
    · by_cases hother : v.name = other
      · simp [erase, hother, h]
      · simpa [erase, hv, hother] using ih

theorem valueOf?_of_erase_eq (h : after.erase name = vars.erase name) (hne : other ≠ name) :
    after.valueOf? other = vars.valueOf? other := by
  rw [← valueOf?_erase after hne, h, valueOf?_erase vars hne]

end Variables

def SetsVariable (list : TokenList) (name : Bytes) : Prop :=
  list.command? = some (Bytes.ofString "set") ∧ list.get? 1 = some name ∧
    ∀ cause, ¬ SetFails list cause

section
variable {list : TokenList} {s : Session} {name : Bytes}

theorem runSet_of_fails {cause : EnvError} (h : SetFails list cause) :
    (Builtin.runSet list s).result = .error (.env cause) := by
  have hfails {name : Bytes} (hname : list.get? 1 = some name) :
      (Builtin.runSet list s).result = .error (.env cause) := by
    unfold Builtin.runSet
    rw [hname]
    dsimp only
    rw [Act.bind_error_iff (fun _ _ => ⟨.proceed, rfl⟩), Act.mapError_error_iff]
    exact ⟨cause, (setFails_iff hname).mpr h, rfl⟩
  cases h with
  | badName argument _ => exact hfails argument
  | badValue argument _ _ _ _ => exact hfails argument

theorem execute_of_set (h : list.command? = some (Bytes.ofString "set")) :
    (execute list s).result = (Builtin.runSet list s).result := by
  rw [execute_of_builtin h (by decide : Builtin.ofName? (Bytes.ofString "set") = some .set)]
  rfl

theorem execute_keeps_value (hpwd : name ≠ Environment.pwd) (hset : ¬ SetsVariable list name) :
    (execute list s).session.world.vars.valueOf? name = s.world.vars.valueOf? name := by
  by_cases hchanged : (execute list s).session.world.vars = s.world.vars
  · rw [hchanged]
  · obtain ⟨⟨status, hok⟩, bound, hothers, hwriter⟩ := (execute_frame list s).binding hchanged
    apply Variables.valueOf?_of_erase_eq hothers
    rintro rfl
    rcases hwriter with ⟨_, hcd⟩ | ⟨hcommand, hargument⟩
    · exact hpwd hcd
    · apply hset
      refine ⟨hcommand, hargument, ?_⟩
      intro cause hfails
      rw [execute_of_set hcommand, runSet_of_fails hfails] at hok
      cases hok

end

namespace Shell

variable {shell : Shell} {source : Source} {s t : Session} {lines : List Bytes} {ending : Ending}

theorem afterLine_world (line : Bytes) (u : Session) :
    (shell.afterLine line u).world = (execute (tokenize line) u).session.world :=
  executeLine_world shell line u

theorem Ends.keeps_value {name : Bytes} (h : shell.Ends source s lines ending t)
    (hpwd : name ≠ Environment.pwd) (hset : ∀ line ∈ lines, ¬ SetsVariable (tokenize line) name) :
    t.world.vars.valueOf? name = s.world.vars.valueOf? name := by
  apply h.keeps (P := fun w => w.vars.valueOf? name = s.world.vars.valueOf? name)
  · intro line hline u hu
    rw [afterLine_world, execute_keeps_value hpwd (hset line hline)]
    exact hu
  · rfl

theorem Ends.keeps_plain (h : shell.Ends source s lines ending t) (hs : s.world.vars.Plain) :
    t.world.vars.Plain := by
  apply h.keeps (P := fun w => w.vars.Plain)
  · intro line _ u hu
    rw [afterLine_world]
    apply execute_keeps_vars hu
    intro vars name value hname hvars
    exact hvars.set hname
  · exact hs

end Shell

/-- Only `cd` and `set` touch the state of the shell, and each only its own part of it, whatever the
output channel does to them. So through any run a variable other than `PWD` that no line sets keeps
its value. -/
theorem only_cd_and_set_touch_the_state :
    (∀ list s, Frame list s.world (execute list s)) ∧
    ∀ (shell : Shell) (source : Source) (s : Session) (name : Bytes),
      let run := shell.run source s
      name ≠ Environment.pwd → (∀ line ∈ executed run.events, ¬ SetsVariable (tokenize line) name) →
      run.session.world.vars.valueOf? name = s.world.vars.valueOf? name ∧
      (s.world.vars.Plain → Variables.validName name = true →
        run.session.world.vars.get? name = s.world.vars.get? name) := by
  refine ⟨execute_frame, ?_⟩
  intro shell source s name run hpwd hset
  obtain ⟨lines, ending, t, hends⟩ := shell.ends_exists source s
  obtain ⟨_, rfl, rfl⟩ := hends.run
  have hvalue := hends.keeps_value hpwd hset
  refine ⟨hvalue, ?_⟩
  intro hplain hname
  rw [Variables.get?_eq_valueOf? (hends.keeps_plain hplain) hname, hvalue,
    Variables.get?_eq_valueOf? hplain hname]

/-- A child renames the directory that the shell sits in, one variable is set, another is not, and
then the prompt finds no more room. -/
theorem variable_and_directory_stay_through_run :
    let s : Session := ⟨{ Machine.world [("PATH", "/bin"), ("B", "1")] with
      cwd := .live [Bytes.ofString "tmp"] }, .limited 6 .noSpace, .accepting⟩
    let shell := Shell.mk "$ " .plain
    let source : Source := [.bytes 109 (Bytes.ofString "v /tmp /t\nset A x\nset B \x00\n")]
    let run := shell.run source s
    let list := tokenize (Bytes.ofString "mv /tmp /t\n")
    let moved := execute list s
    executed run.events =
      [Bytes.ofString "mv /tmp /t\n", Bytes.ofString "set A x\n", Bytes.ofString "set B \x00\n"] ∧
    run.session.world.vars.get? (Bytes.ofString "B") = some (Bytes.ofString "1") ∧
    RanIn list s.world moved.session.world ∧
    moved.session.world.cwd = .live [Bytes.ofString "t"] ∧
    moved.session.world.vars = s.world.vars := by
  intro s shell source run list moved
  obtain ⟨hframe, hrun⟩ := only_cd_and_set_touch_the_state
  have hends : shell.Ends source s [Bytes.ofString "mv /tmp /t\n", Bytes.ofString "set A x\n",
      Bytes.ofString "set B \x00\n"] (.writeFailed .noSpace) _ :=
    .next (by decide +kernel) (by decide +kernel) (by decide)
      (.next (by decide +kernel) (by decide +kernel) (by decide)
        (.next (by decide +kernel) (by decide +kernel) (by decide)
          (.unprompted (by decide +kernel))))
  have hexecuted := hends.run.2.1
  have hset : ∀ line ∈ executed run.events,
      ¬ SetsVariable (tokenize line) (Bytes.ofString "B") := by
    rw [hexecuted]
    simp only [List.forall_mem_cons]
    refine ⟨?_, ?_, ?_, List.forall_mem_nil _⟩
    · rintro ⟨hcommand, _⟩
      exact absurd hcommand (by decide)
    · rintro ⟨_, hargument, _⟩
      exact absurd hargument (by decide)
    · rintro ⟨_, hargument, htaken⟩
      have hgiven : (tokenize (Bytes.ofString "set B \x00\n")).get? 2 = some [0] := by decide
      exact htaken _ (.badValue hargument hgiven (by decide) (by decide) (by decide))
  have hstarts : moved.Starts := by
    refine ⟨["mv", "/tmp", "/t"].map Bytes.ofString, s.world.vars, ?_⟩
    decide +kernel
  have hvalue : s.world.vars.get? (Bytes.ofString "B") = some (Bytes.ofString "1") := by
    decide +kernel
  have hkept := (hrun shell source s (Bytes.ofString "B") (by decide) hset).2 (by decide)
    (by decide)
  have hmoved : Frame list s.world moved := hframe list s
  refine ⟨hexecuted, hkept.trans hvalue, hmoved.child hstarts, ?_, ?_⟩
  · decide +kernel
  · by_contra hchanged
    obtain ⟨_, _, _, ⟨hcommand, _⟩ | ⟨hcommand, _⟩⟩ := hmoved.binding hchanged
    · exact absurd hcommand (by decide)
    · exact absurd hcommand (by decide)

end LineShell
