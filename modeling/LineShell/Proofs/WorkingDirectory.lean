import LineShell.Proofs.LastWriter

/-!
# `PWD` and the working directory

Where the shell is, is kept twice: by the system and in `PWD`. What moves the shell binds `PWD` to
where the system says it has come, and what fails does neither. So the two stay in step until `PWD`
is bound by hand, or the directory is taken away under the shell.
-/
namespace LineShell

open Bytes (newline)

/-- `PWD` is bound to the path that the system reports. -/
def World.InStep (w : World) : Prop :=
  ∃ path, w.workingDirectory = .ok path ∧ w.vars.get? Environment.pwd = some path

/-- A child that is started here takes away neither the working directory nor one above it. -/
def Event.StartsSparing (w : World) : Event → Prop
  | started (name :: arguments) _ => ∀ script ∈ (w.exec name arguments).toOption,
    script.Spares { w with nextPid := w.nextPid + 1 }
  | _ => True

instance (w : World) : DecidablePred (Event.StartsSparing w)
  | .started (name :: arguments) _ =>
    inferInstanceAs (Decidable (∀ script ∈ (w.exec name arguments).toOption,
      script.Spares { w with nextPid := w.nextPid + 1 }))
  | .started [] _ | .line _ | .wrote _ _ | .flushed _ | .complained _ _ | .bound _ _ | .requested _
  | .childWrote _ _ | .record _ => isTrue trivial

/-- No `set` of `PWD` goes well, and no child moves the ground. -/
structure Undisturbed (list : TokenList) (s : Session) : Prop where
  set : list.tokens.take 2 = [Bytes.ofString "set", Environment.pwd] →
    (execute list s).result.isOk = false
  child : ∀ e ∈ (execute list s).events, e.StartsSparing s.world

instance (list : TokenList) (s : Session) : Decidable (Undisturbed list s) :=
  decidable_of_iff
    ((list.tokens.take 2 = [Bytes.ofString "set", Environment.pwd] →
      (execute list s).result.isOk = false) ∧
        ∀ e ∈ (execute list s).events, e.StartsSparing s.world)
    ⟨fun h => ⟨h.1, h.2⟩, fun h => ⟨h.set, h.child⟩⟩

namespace Shell

variable (shell : Shell)

def AllUndisturbed : List Bytes → Session → Prop
  | [], _ => True
  | line :: later, s => Undisturbed (tokenize line) s ∧
    AllUndisturbed later (shell.executeLine line s : Step ShellError Status).session

instance decidableAllUndisturbed :
    (lines : List Bytes) → (s : Session) → Decidable (shell.AllUndisturbed lines s)
  | [], _ => isTrue trivial
  | line :: later, s =>
    let step : Step ShellError Status := shell.executeLine line s
    have := decidableAllUndisturbed later step.session
    inferInstanceAs (Decidable (_ ∧ _))

end Shell

section
variable {list : TokenList} {s : Session}

theorem not_pwd_of_bound {v : Variable} (h : Undisturbed list s)
    (made : bindingOf list (execute list s) = some v)
    (command : list.command? = some (Bytes.ofString "set")) (argument : list.get? 1 = some v.name) :
    v.name ≠ Environment.pwd := by
  intro hpwd
  have htake : list.tokens.take 2 = [Bytes.ofString "set", Environment.pwd] := by
    obtain ⟨arguments, htokens⟩ := TokenList.command?_eq_some_iff.mp command
    cases arguments with
    | nil => simp [TokenList.get?, htokens] at argument
    | cons first more =>
      have hfirst : first = v.name := by simpa [TokenList.get?, htokens] using argument
      rw [htokens, hfirst, hpwd]
      rfl
  have hfails := h.set htake
  cases hr : (execute list s).result with
  | ok status =>
    rw [hr] at hfails
    cases hfails
  | error error =>
    rw [bindingOf_of_error hr] at made
    cases made

theorem execute_inStep (hp : s.world.vars.Plain) (h : s.world.InStep) (hu : Undisturbed list s) :
    (execute list s).session.world.InStep := by
  obtain ⟨path, hdir, hpwd⟩ := h
  have hlive : s.world.cwd.IsLive := World.cwd_isLive_iff.mpr ⟨path, hdir⟩
  cases execute_effect list s with
  | still _ world => exact world ▸ ⟨path, hdir, hpwd⟩
  | bound v made command argument name _ world =>
    have hne := not_pwd_of_bound hu made command argument
    rw [world]
    refine ⟨path, hdir, ?_⟩
    rw [Variables.get?_eq_valueOf? (hp.set name) pwd_valid, Variables.valueOf?_set, if_neg hne,
      ← Variables.get?_eq_valueOf? hp pwd_valid, hpwd]
  | moved target w current _ _ move here world =>
    have hw : w.vars.Plain := World.moveTo_vars move ▸ hp
    rw [world]
    refine ⟨current, here, ?_⟩
    rw [Variables.get?_eq_valueOf? (hw.set pwd_valid) pwd_valid, Variables.valueOf?_set, if_pos rfl]
  | strayed target w fault _ _ move lost _ =>
    -- from a directory that exists, a move leads to another one
    obtain ⟨there, hthere⟩ := World.cwd_isLive_iff.mp (World.moveTo_isLive hlive move)
    rw [hthere] at lost
    cases lost
  | ran name arguments script _ tokens exec started world =>
    have hspares := hu.child _ started script (exec ▸ rfl)
    have hcwd := World.live_cwd script { s.world with nextPid := s.world.nextPid + 1 } hlive hspares
    rw [world]
    refine ⟨path, ?_, ?_⟩
    · rw [World.workingDirectory, hcwd]
      exact hdir
    · rw [World.live_vars]
      exact hpwd

theorem afterLines_inStep {shell : Shell} {lines : List Bytes} (hp : s.world.vars.Plain)
    (h : s.world.InStep) (hu : shell.AllUndisturbed lines s) (k : Nat) :
    (shell.afterLines (lines.take k) s).world.InStep := by
  induction lines generalizing s k with
  | nil =>
    rw [List.take_nil]
    exact h
  | cons line later ih =>
    cases k with
    | zero => exact h
    | succ k =>
      have hworld := executeLine_world (ε := ShellError) shell line s
      refine ih ?_ ?_ hu.2 k
      · rw [hworld]
        exact execute_keeps_vars hp fun _ _ _ hname hvars => hvars.set hname
      · rw [hworld]
        exact execute_inStep hp h hu.1

theorem written_of_pwd (shell : Shell) {line path : Bytes} {more : List Bytes}
    (ho : s.out.TakesAll) (h : Reads line (Bytes.ofString "pwd" :: more))
    (hpwd : s.world.vars.get? Environment.pwd = some path) :
    written (shell.executeLine line s : Step ShellError Status).events = path ++ [newline] := by
  have hspoken : Builtin.pwd.spoken (tokenize line) s.world = some [path, [newline]] := by
    simp [Builtin.spoken, hpwd]
  rw [written_of_spoken shell ho (command_of_reads h) (by decide) hspoken]
  simp

end

/-- While no `set` binds `PWD` and no child takes away the directory, `PWD` is after every line the
path that the system reports, and `pwd` writes it byte for byte. -/
theorem pwd_stays_in_step (shell : Shell) (lines : List Bytes) (s : Session)
    (hp : s.world.vars.Plain) (h : s.world.InStep) (hu : shell.AllUndisturbed lines s) (k : Nat) :
    let t := shell.afterLines (lines.take k) s
    ∃ path, t.world.workingDirectory = .ok path ∧ t.world.vars.get? Environment.pwd = some path ∧
      (s.out.TakesAll → ∀ line more, Reads line (Bytes.ofString "pwd" :: more) →
        written (shell.executeLine line t : Step ShellError Status).events =
          path ++ [newline]) := by
  intro t
  obtain ⟨path, hdir, hpwd⟩ := afterLines_inStep hp h hu k
  refine ⟨path, hdir, hpwd, fun ho line more hline => ?_⟩
  exact written_of_pwd shell (Shell.afterLines_takesAll ho _) hline hpwd

/-- One child makes a directory, and another removes it once the shell has left it again. -/
theorem pwd_in_step_among_children :
    let s : Session := ⟨Machine.world [("PATH", "/bin"), ("PWD", "/")], .accepting, .accepting⟩
    let lines := ["mkdir tmp/d\n", "cd tmp/d\n", "cd nowhere\n", "cd ..\n", "rmdir d\n"].map
      Bytes.ofString
    let shell := Shell.mk "$ " .plain
    let step : Step ShellError Status :=
      shell.executeLine (Bytes.ofString "pwd\n") (shell.afterLines (lines.take 5) s)
    s.world.vars.Plain ∧ s.world.InStep ∧ shell.AllUndisturbed lines s ∧
      written step.events = Bytes.ofString "/tmp\n" := by
  intro s lines shell step
  have hp : s.world.vars.Plain := by decide
  have hstep : s.world.InStep := ⟨[Bytes.slash], rfl, by decide⟩
  have hu : shell.AllUndisturbed lines s := by decide +kernel
  have hbound : (shell.afterLines (lines.take 5) s).world.vars.get? Environment.pwd =
      some (Bytes.ofString "/tmp") := by
    decide +kernel
  have hline : Reads (Bytes.ofString "pwd\n") [Bytes.ofString "pwd"] :=
    reads_iff_tokens.mpr (by decide)
  obtain ⟨path, _, hpwd, hwrites⟩ := pwd_stays_in_step shell lines s hp hstep hu 5
  have hpath : path = Bytes.ofString "/tmp" := by
    rw [hbound] at hpwd
    exact (Option.some.inj hpwd).symm
  have hwritten := hwrites Channel.accepting_takesAll _ _ hline
  rw [hpath] at hwritten
  exact ⟨hp, hstep, hu, hwritten⟩

end LineShell
