import LineShell.Proofs.Requests
import LineShell.Proofs.Places

/-!
# Waiting for a child

A status word tells an exit from a death and both from a stop. So the wait for a child outlasts its
stops and its own interruptions and ends with the child's end, unless the system keeps no ended
children: then there is nothing left to be told of, and the wait itself fails.
-/
namespace LineShell

open StatusWord (isExit isDeath isStop upperByte deathSignal)

section
variable {n : Nat}

theorem isExit_iff : isExit n = true ↔ n % 128 = 0 := decide_eq_true_iff

theorem isDeath_iff : isDeath n = true ↔ 0 < n % 128 ∧ n % 128 < 127 := by
  simp [isDeath]

theorem isStop_iff : isStop n = true ↔ n % 256 = 127 := decide_eq_true_iff

end

theorem exited_word (code : UInt8) :
    isExit (Change.exited code).word ∧ upperByte (Change.exited code).word = code.toNat := by
  have hcode := code.toNat_lt
  change isExit (code.toNat * 256) ∧ code.toNat * 256 / 256 % 256 = code.toNat
  rw [isExit_iff]
  omega

theorem killed_word (signal : Signal) (coreDumped : Bool) :
    ¬ isExit (Change.killed signal coreDumped).word ∧
      isDeath (Change.killed signal coreDumped).word ∧
        deathSignal (Change.killed signal coreDumped).word = signal.number := by
  have hpos := signal.pos
  have hle := signal.le
  obtain ⟨core, hword, hcore⟩ : ∃ core : Nat,
      (Change.killed signal coreDumped).word = signal.number + core ∧ core % 128 = 0 := by
    cases coreDumped
    · exact ⟨0, rfl, rfl⟩
    · exact ⟨128, rfl, rfl⟩
  rw [hword]
  change ¬ _ ∧ _ ∧ (signal.number + core) % 128 = signal.number
  rw [isExit_iff, isDeath_iff]
  omega

theorem stopped_word (signal : Signal) :
    ¬ isExit (Change.stopped signal).word ∧ ¬ isDeath (Change.stopped signal).word ∧
      isStop (Change.stopped signal).word ∧
        upperByte (Change.stopped signal).word = signal.number := by
  have hle := signal.le
  have hword : (Change.stopped signal).word = (signal.number * 256 + 127 : Nat) := rfl
  rw [hword, isExit_iff, isDeath_iff, isStop_iff]
  change _ ∧ _ ∧ _ ∧ (signal.number * 256 + 127) / 256 % 256 = signal.number
  omega

/-- How a program ends that is left to run in a world. -/
def World.outcome : Script → World → Outcome
  | .exit code, _ => .exited code.toNat
  | .die signal _, _ => .signaled signal.number
  | .stop _ next, w | .write _ _ next, w => outcome next w
  | .readInput next, w => outcome (next w.childInput) { w with childInput := [] }
  | .askDirectory next, w => outcome (next w.workingDirectory.toOption) w
  | .makeDirectory path next, w =>
    outcome (next (w.makeDirectory path).isSome) (w.granted (w.makeDirectory path))
  | .removeDirectory path next, w =>
    outcome (next (w.removeDirectory path).isSome) (w.granted (w.removeDirectory path))
  | .rename source target next, w =>
    outcome (next (w.rename source target).isSome) (w.granted (w.rename source target))

namespace World

variable {w : World}

theorem makeDirectory_keepsEnded (path : Bytes) :
    (w.granted (w.makeDirectory path)).keepsEnded = w.keepsEnded := by
  refine granted_eq (P := (·.keepsEnded = w.keepsEnded)) rfl fun w' h => ?_
  obtain ⟨tree, rfl⟩ := makeDirectory_eq h
  rfl

theorem removeDirectory_keepsEnded (path : Bytes) :
    (w.granted (w.removeDirectory path)).keepsEnded = w.keepsEnded := by
  refine granted_eq (P := (·.keepsEnded = w.keepsEnded)) rfl fun w' h => ?_
  obtain ⟨gone, _, rfl⟩ := removeDirectory_eq h
  rfl

theorem rename_keepsEnded (source target : Bytes) :
    (w.granted (w.rename source target)).keepsEnded = w.keepsEnded := by
  refine granted_eq (P := (·.keepsEnded = w.keepsEnded)) rfl fun w' h => ?_
  obtain ⟨_, _, _, _, rfl | ⟨_, cleared, _, rfl | ⟨_, rfl⟩, rfl⟩⟩ := rename_eq h <;> rfl

end World

section
variable (pid : Nat) (later : List Activity) (s : Session)

theorem awaitEnd_interrupted :
    awaitEnd pid (.interrupted :: later) = awaitEnd pid later := by
  rw [awaitEnd]

theorem awaitEnd_wrote (outlet : Outlet) (bytes : Bytes) :
    awaitEnd pid (.wrote outlet bytes :: later) s =
      let rest := awaitEnd pid later s
      ⟨rest.result, .childWrote outlet bytes :: rest.events, rest.session⟩ := by
  rw [awaitEnd, Act.bind_ok rfl]
  rfl

theorem awaitEnd_stopped (signal : Signal) :
    awaitEnd pid (.changed (Change.stopped signal).word :: later) s =
      let rest := awaitEnd pid later s
      ⟨rest.result, .record (.stopped pid signal.number) :: rest.events, rest.session⟩ := by
  obtain ⟨hexit, hdeath, hstop, hsignal⟩ := stopped_word signal
  rw [awaitEnd, if_neg hexit, if_neg hdeath, if_pos hstop, Act.bind_ok rfl, hsignal]
  rfl

theorem awaitEnd_exited (code : UInt8) :
    awaitEnd pid (.changed (Change.exited code).word :: later) s =
      ⟨.ok (.exited code.toNat), [.record (.exited pid code.toNat)], s⟩ := by
  obtain ⟨hexit, hcode⟩ := exited_word code
  rw [awaitEnd, if_pos hexit, hcode]
  rfl

theorem awaitEnd_killed (signal : Signal) (coreDumped : Bool) :
    awaitEnd pid (.changed (Change.killed signal coreDumped).word :: later) s =
      ⟨.ok (.signaled signal.number), [.record (.killed pid signal.number)], s⟩ := by
  obtain ⟨hexit, hdeath, hsignal⟩ := killed_word signal coreDumped
  rw [awaitEnd, if_neg hexit, if_pos hdeath, hsignal]
  rfl

end

/-- Interruptions of the wait, wherever they come, make no difference. -/
theorem awaitEnd_uninterrupted (pid : Nat) (activity : List Activity) :
    awaitEnd pid (activity.filter (· ≠ .interrupted)) = awaitEnd pid activity := by
  induction activity with
  | nil => rfl
  | cons first later ih =>
    cases first with
    | wrote outlet bytes =>
      rw [List.filter_cons_of_pos (by simp), awaitEnd, awaitEnd, ih]
    | changed word =>
      rw [List.filter_cons_of_pos (by simp), awaitEnd, awaitEnd, ih]
    | interrupted =>
      rw [List.filter_cons_of_neg (by simp), awaitEnd_interrupted, ih]

/-- What the wait for a child brings: how the child ended, if that can still be asked. -/
theorem awaitEnd_live (pid : Nat) (script : Script) (w : World) (s : Session) :
    (awaitEnd pid (World.live script w).1 s).result =
      if w.keepsEnded then .ok (World.outcome script w) else .error (.wait .noChild) := by
  induction script generalizing w with
  | exit code =>
    unfold World.live World.reportEnd
    split
    · exact congrArg Step.result (awaitEnd_exited pid [] s code)
    · rfl
  | die signal coreDumped =>
    unfold World.live World.reportEnd
    split
    · exact congrArg Step.result (awaitEnd_killed pid [] s signal coreDumped)
    · rfl
  | stop signal next ih =>
    exact (congrArg Step.result (awaitEnd_stopped pid _ s signal)).trans (ih w)
  | write outlet bytes next ih =>
    exact (congrArg Step.result (awaitEnd_wrote pid _ s outlet bytes)).trans (ih w)
  | readInput next ih => exact ih _ _
  | askDirectory next ih => exact ih _ w
  | makeDirectory path next ih =>
    have hrest := ih (w.makeDirectory path).isSome (w.granted (w.makeDirectory path))
    rwa [World.makeDirectory_keepsEnded] at hrest
  | removeDirectory path next ih =>
    have hrest := ih (w.removeDirectory path).isSome (w.granted (w.removeDirectory path))
    rwa [World.removeDirectory_keepsEnded] at hrest
  | rename source target next ih =>
    have hrest := ih (w.rename source target).isSome (w.granted (w.rename source target))
    rwa [World.rename_keepsEnded] at hrest

end LineShell
