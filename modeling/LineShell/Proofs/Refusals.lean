import LineShell.Proofs.CommandEffects
import LineShell.Proofs.VariableStore
import LineShell.Proofs.Waiting

/-!
# What commands are refused

On output that takes everything, four kinds of command can fail: `cd`, `set`, `pwd` and those that
start a program. Whether one fails, and with which error, can be told from its tokens and the world
that it finds.
-/
namespace LineShell

open Bytes (equals)

inductive CdFails (list : TokenList) (w : World) : EnvError → Prop where
  | homeless (aim : w.target? list = none) : CdFails list w .noHome
  | unmoved {target : Bytes} {fault : Fault} (aim : w.target? list = some target)
      (move : w.moveTo target = .error fault) : CdFails list w (.changeDir target fault)
  | lost {target : Bytes} {w' : World} {fault : Fault} (aim : w.target? list = some target)
      (move : w.moveTo target = .ok w') (here : w'.workingDirectory = .error fault) :
      CdFails list w (.io fault)

inductive SetFails (list : TokenList) : EnvError → Prop where
  | badName {name : Bytes} (argument : list.get? 1 = some name) (bad : equals ∈ name ∨ 0 ∈ name) :
      SetFails list (.badName (Utf8.lossy name))
  | badValue {name value : Bytes} (argument : list.get? 1 = some name)
      (given : list.get? 2 = some value) (noEquals : equals ∉ name) (noNul : 0 ∉ name)
      (bad : 0 ∈ value) : SetFails list (.badValue "contains a NUL byte")

/-- Why a program's command fails: it cannot be started, or not be waited for. How the program ends
does not matter. -/
inductive LaunchFails (name : Bytes) (arguments : List Bytes) (w : World) :
    ProcessError → Prop where
  | unstarted {fault : Fault} (exec : w.exec name arguments = .error fault) :
      LaunchFails name arguments w (.ofSpawn (Utf8.lossy name) fault)
  | unawaited {script : Script} (exec : w.exec name arguments = .ok script)
      (forgotten : w.keepsEnded = false) : LaunchFails name arguments w (.wait .noChild)

/-- The commands that are refused, each with its error. -/
inductive Refused (list : TokenList) (w : World) : CommandError → Prop where
  | cd {error : EnvError} (command : list.command? = some (Bytes.ofString "cd"))
      (fails : CdFails list w error) : Refused list w (.env error)
  | set {error : EnvError} (command : list.command? = some (Bytes.ofString "set"))
      (fails : SetFails list error) : Refused list w (.env error)
  | pwd (command : list.command? = some (Bytes.ofString "pwd"))
      (unset : w.vars.get? Environment.pwd = none) :
      Refused list w (.env (.unset (Utf8.lossy Environment.pwd)))
  | launch {name : Bytes} {arguments : List Bytes} {error : ProcessError}
      (tokens : list.tokens = name :: arguments) (external : Builtin.ofName? name = none)
      (fails : LaunchFails name arguments w error) : Refused list w (.process error)

namespace Act

variable {ε δ α β : Type} {s : Session}

theorem mapError_error_iff {f : Act ε α} {k : ε → δ} {e : δ} :
    (f.mapError k s).result = .error e ↔ ∃ error, (f s).result = .error error ∧ e = k error := by
  change (f s).result.mapError k = .error e ↔ _
  cases (f s).result with
  | error error =>
    change Except.error (k error) = Except.error e ↔ _
    simp [eq_comm]
  | ok a =>
    change Except.ok a = Except.error e ↔ _
    simp

theorem bind_error_iff {f : Act ε α} {g : α → Act ε β} {e : ε}
    (hg : ∀ a t, ∃ b, (g a t).result = .ok b) :
    ((f >>= g) s).result = .error e ↔ (f s).result = .error e := by
  cases h : (f s).result with
  | error error => simp [bind_error h]
  | ok a =>
    obtain ⟨b, hb⟩ := hg a (f s).session
    simp [bind_ok h, hb]

end Act

section
variable {list : TokenList} {s : Session} {error : CommandError}

theorem runCd_error_iff : (Builtin.runCd list s).result = .error error ↔
    ∃ cause, CdFails list s.world cause ∧ error = .env cause := by
  constructor
  · intro h
    cases haim : s.world.target? list with
    | none =>
      rw [runCd_of_homeless haim] at h
      exact ⟨.noHome, .homeless haim, (Except.error.inj h).symm⟩
    | some target =>
      rw [runCd_of_target haim, Act.mapError_error_iff] at h
      obtain ⟨cause, hgo, rfl⟩ := h
      refine ⟨cause, ?_, rfl⟩
      cases hmove : s.world.moveTo target with
      | error fault =>
        rw [goTo_of_refused hmove] at hgo
        cases hgo
        exact .unmoved haim hmove
      | ok w =>
        cases hhere : w.workingDirectory with
        | error fault =>
          rw [goTo_of_lost hmove hhere] at hgo
          cases hgo
          exact .lost haim hmove hhere
        | ok current =>
          rw [goTo_of_moved hmove hhere] at hgo
          cases hgo
  · rintro ⟨cause, hfails, rfl⟩
    cases hfails with
    | homeless aim => rw [runCd_of_homeless aim]
    | unmoved aim move =>
      rw [runCd_of_target aim, Act.mapError_of_error (goTo_of_refused move)]
    | lost aim move here =>
      rw [runCd_of_target aim, Act.mapError_of_error (goTo_of_lost move here)]

theorem setVar_error_iff {name value : Bytes} {cause : EnvError} :
    (Environment.setVar name value s).result = .error cause ↔
      Variables.validName name = false ∧ cause = .badName (Utf8.lossy name) ∨
      Variables.validName name = true ∧ value.hasNul = true ∧
        cause = .badValue "contains a NUL byte" := by
  cases hname : Variables.validName name with
  | false =>
    rw [setVar_of_badName hname]
    constructor
    · intro h
      exact .inl ⟨rfl, (Except.error.inj h).symm⟩
    · rintro (⟨_, rfl⟩ | ⟨hgood, _⟩)
      · rfl
      · cases hgood
  | true =>
    cases hvalue : value.hasNul with
    | true =>
      rw [setVar_of_badValue hname hvalue]
      constructor
      · intro h
        exact .inr ⟨rfl, rfl, (Except.error.inj h).symm⟩
      · rintro (⟨hbad, _⟩ | ⟨_, _, rfl⟩)
        · cases hbad
        · rfl
    | false =>
      rw [setVar_of_good hname hvalue]
      constructor
      · intro h
        cases h
      · rintro (⟨hbad, _⟩ | ⟨_, hbad, _⟩)
        · cases hbad
        · cases hbad

theorem validName_of_token {name : Bytes} {index : Nat} (h : list.get? index = some name) :
    Variables.validName name = false ↔ equals ∈ name ∨ 0 ∈ name := by
  have hne : name ≠ [] := list.tokens_nonempty name (List.mem_of_getElem? h)
  rw [← Bool.not_eq_true, Variables.validName_iff, hasNul_eq_false_iff]
  constructor
  · intro hbad
    by_contra hgood
    push Not at hgood
    exact hbad ⟨hne, hgood⟩
  · rintro (hequals | hnul) ⟨_, hgood⟩
    · exact hgood.1 hequals
    · exact hgood.2 hnul

theorem setFails_iff {name : Bytes} (h : list.get? 1 = some name) {cause : EnvError} :
    (Environment.setVar name ((list.get? 2).getD name) s).result = .error cause ↔
      SetFails list cause := by
  rw [setVar_error_iff]
  constructor
  · rintro (⟨hbad, rfl⟩ | ⟨hgood, hvalue, rfl⟩)
    · exact .badName h ((validName_of_token h).mp hbad)
    · obtain ⟨_, hequals, hnul⟩ := Variables.validName_iff.mp hgood
      cases hgiven : list.get? 2 with
      | none =>
        rw [hgiven, Option.getD_none, hnul] at hvalue
        cases hvalue
      | some value =>
        rw [hgiven, Option.getD_some, hasNul_iff] at hvalue
        exact .badValue h hgiven hequals (hasNul_eq_false_iff.mp hnul) hvalue
  · intro hfails
    cases hfails with
    | badName argument bad =>
      cases Option.some.inj (h.symm.trans argument)
      exact .inl ⟨(validName_of_token h).mpr bad, rfl⟩
    | badValue argument given noEquals noNul bad =>
      cases Option.some.inj (h.symm.trans argument)
      have hne : name ≠ [] := list.tokens_nonempty name (List.mem_of_getElem? h)
      refine .inr ⟨?_, ?_, rfl⟩
      · exact Variables.validName_iff.mpr ⟨hne, noEquals, hasNul_eq_false_iff.mpr noNul⟩
      · rw [given, Option.getD_some, hasNul_iff]
        exact bad

theorem run_of_spoken_ok {builtin : Builtin} {pieces : List Bytes} (ho : s.out.TakesAll)
    (h : builtin.spoken list s.world = some pieces) :
    (builtin.run list s).result = .ok .proceed := by
  obtain ⟨out, hpieces⟩ := writeEach_of_takesAll ho pieces
  rw [run_of_spoken h, Builtin.say, Act.bind_ok (congrArg Step.result hpieces)]
  rfl

theorem runSet_error_iff (ho : s.out.TakesAll) : (Builtin.runSet list s).result = .error error ↔
    ∃ cause, SetFails list cause ∧ error = .env cause := by
  cases hname : list.get? 1 with
  | none =>
    have hspoken : Builtin.set.spoken list s.world =
        some [Bytes.ofString "please enter a variable\n"] := by
      simp [Builtin.spoken, hname]
    have hok : (Builtin.runSet list s).result = .ok .proceed := run_of_spoken_ok ho hspoken
    rw [hok]
    constructor
    · intro h
      cases h
    · rintro ⟨cause, hfails, rfl⟩
      cases hfails with
      | badName argument => cases hname.symm.trans argument
      | badValue argument => cases hname.symm.trans argument
  | some name =>
    unfold Builtin.runSet
    rw [hname]
    dsimp only
    rw [Act.bind_error_iff (fun _ _ => ⟨.proceed, rfl⟩), Act.mapError_error_iff]
    simp only [setFails_iff hname]

theorem runPwd_error_iff (ho : s.out.TakesAll) : (Builtin.runPwd s).result = .error error ↔
    s.world.vars.get? Environment.pwd = none ∧
      error = .env (.unset (Utf8.lossy Environment.pwd)) := by
  cases hvalue : s.world.vars.get? Environment.pwd with
  | none =>
    rw [runPwd_of_unset hvalue]
    constructor
    · intro h
      exact ⟨rfl, (Except.error.inj h).symm⟩
    · rintro ⟨_, rfl⟩
      rfl
  | some value =>
    have hspoken : Builtin.pwd.spoken .empty s.world = some [value, [Bytes.newline]] := by
      simp [Builtin.spoken, hvalue]
    have hok : (Builtin.runPwd s).result = .ok .proceed := run_of_spoken_ok ho hspoken
    rw [hok]
    constructor
    · intro h
      cases h
    · rintro ⟨h, _⟩
      cases h

theorem run_not_error {builtin : Builtin} (ho : s.out.TakesAll) (hcd : builtin ≠ .cd)
    (hset : builtin ≠ .set) (hpwd : builtin ≠ .pwd) :
    (builtin.run list s).result ≠ .error error := by
  have hsaid {pieces : List Bytes} (h : builtin.spoken list s.world = some pieces) :
      (builtin.run list s).result ≠ .error error := by
    rw [run_of_spoken_ok ho h]
    intro hfail
    cases hfail
  cases builtin with
  | cd => exact absurd rfl hcd
  | set => exact absurd rfl hset
  | pwd => exact absurd rfl hpwd
  | exit =>
    intro hfail
    cases hfail
  | pid | ppid => exact hsaid rfl
  | get =>
    obtain ⟨pieces, hspoken⟩ := get_spoken list s.world
    exact hsaid hspoken

theorem launch_error_iff {name : Bytes} {arguments : List Bytes}
    (htokens : list.tokens = name :: arguments) {cause : ProcessError} :
    (launch list s).result = .error cause ↔ LaunchFails name arguments s.world cause := by
  cases hexec : s.world.exec name arguments with
  | error fault =>
    rw [launch_of_refused htokens hexec]
    constructor
    · intro h
      cases h
      exact .unstarted hexec
    · intro hfails
      cases hfails with
      | unstarted exec => cases Except.error.inj (hexec.symm.trans exec); rfl
      | unawaited exec => cases hexec.symm.trans exec
  | ok script =>
    rw [launch_of_started htokens hexec]
    dsimp only
    rw [awaitEnd_live]
    constructor
    · intro h
      split at h
      · cases h
      · next hforgotten =>
        cases h
        exact .unawaited hexec (by simpa using hforgotten)
    · intro hfails
      cases hfails with
      | unstarted exec => cases hexec.symm.trans exec
      | unawaited _ forgotten => simp [forgotten]

theorem runExternal_error_iff {name : Bytes} {arguments : List Bytes} (ho : s.out.TakesAll)
    (htokens : list.tokens = name :: arguments) :
    (runExternal name list s).result = .error error ↔
      ∃ cause, LaunchFails name arguments s.world cause ∧ error = .process cause := by
  have hfails (cause : ProcessError) :
      (launch list { s with out := s.out.flush.2 }).result = .error cause ↔
        LaunchFails name arguments s.world cause :=
    launch_error_iff htokens
  rw [runExternal_of_flushed ho.flush_none]
  rcases hlaunch : launch list { s with out := s.out.flush.2 } with ⟨cause | outcome, events, t⟩
  · rw [afterFlush_of_failed hlaunch]
    simp [← hfails, hlaunch, eq_comm]
  · rw [afterFlush_of_ended hlaunch]
    simp [← hfails, hlaunch]

theorem refused_iff {name : Bytes} {w : World} (hname : list.command? = some name) :
    Refused list w error ↔
      match Builtin.ofName? name with
      | some .cd => ∃ cause, CdFails list w cause ∧ error = .env cause
      | some .set => ∃ cause, SetFails list cause ∧ error = .env cause
      | some .pwd =>
        w.vars.get? Environment.pwd = none ∧ error = .env (.unset (Utf8.lossy Environment.pwd))
      | some _ => False
      | none => ∃ arguments cause, list.tokens = name :: arguments ∧
          LaunchFails name arguments w cause ∧ error = .process cause := by
  constructor
  · intro hrefused
    cases hrefused with
    | cd command fails =>
      cases hname.symm.trans command
      exact ⟨_, fails, rfl⟩
    | set command fails =>
      cases hname.symm.trans command
      exact ⟨_, fails, rfl⟩
    | pwd command unset =>
      cases hname.symm.trans command
      exact ⟨unset, rfl⟩
    | launch tokens external fails =>
      cases hname.symm.trans (TokenList.command?_eq_some_iff.mpr ⟨_, tokens⟩)
      rw [external]
      exact ⟨_, _, tokens, fails, rfl⟩
  · intro h
    split at h
    · next hb =>
      obtain ⟨cause, fails, rfl⟩ := h
      exact .cd (Builtin.ofName?_eq_some_iff.mp hb ▸ hname) fails
    · next hb =>
      obtain ⟨cause, fails, rfl⟩ := h
      exact .set (Builtin.ofName?_eq_some_iff.mp hb ▸ hname) fails
    · next hb =>
      obtain ⟨unset, rfl⟩ := h
      exact .pwd (Builtin.ofName?_eq_some_iff.mp hb ▸ hname) unset
    · exact h.elim
    · next hb =>
      obtain ⟨arguments, cause, tokens, fails, rfl⟩ := h
      exact .launch tokens hb fails

theorem not_refused_of_empty {w : World} (h : list.command? = none) : ¬ Refused list w error := by
  intro hrefused
  cases hrefused with
  | cd command => cases h.symm.trans command
  | set command => cases h.symm.trans command
  | pwd command => cases h.symm.trans command
  | launch tokens => cases h.symm.trans (TokenList.command?_eq_some_iff.mpr ⟨_, tokens⟩)

/-- On output that takes everything, a command fails exactly when it is refused. -/
theorem execute_error_iff (ho : s.out.TakesAll) :
    (execute list s).result = .error error ↔ Refused list s.world error := by
  cases hname : list.command? with
  | none =>
    rw [execute_of_empty hname]
    constructor
    · intro h
      cases h
    · intro h
      exact absurd h (not_refused_of_empty hname)
  | some name =>
    rw [refused_iff hname]
    cases hb : Builtin.ofName? name with
    | none =>
      obtain ⟨arguments, htokens⟩ := TokenList.command?_eq_some_iff.mp hname
      rw [execute_of_external hname hb, runExternal_error_iff ho htokens]
      constructor
      · rintro ⟨cause, fails, rfl⟩
        exact ⟨arguments, cause, htokens, fails, rfl⟩
      · rintro ⟨arguments', cause, htokens', fails, rfl⟩
        cases htokens.symm.trans htokens'
        exact ⟨cause, fails, rfl⟩
    | some builtin =>
      rw [execute_of_builtin hname hb]
      cases builtin with
      | cd => exact runCd_error_iff
      | set => exact runSet_error_iff ho
      | pwd => exact runPwd_error_iff ho
      | exit | pid | ppid | get =>
        exact iff_false_intro (run_not_error ho (by decide) (by decide) (by decide))

end

end LineShell
