import LineShell.Proofs.CommandLoop
import LineShell.Proofs.Places

/-!
# What commands do to the world

A built-in that says something does nothing else. Apart from those, a command has one of few
effects: it binds a variable, moves, lets a child run, or leaves the world as it was. Whatever holds
of each of these effects holds of every line.
-/
namespace LineShell

open Act (MadeOf)
open Event (IsOffer IsInternal IsChange IsOfChild IsComplaint)

/-- The pieces that a built-in offers in a world, if it offers any. -/
def Builtin.spoken (builtin : Builtin) (list : TokenList) (w : World) : Option (List Bytes) :=
  let number (label : String) (n : Nat) : List Bytes :=
    [Bytes.ofString label, Bytes.ofString (toString n), [Bytes.newline]]
  let question : List Bytes := [Bytes.ofString "please enter a variable\n"]
  match builtin with
  | cd | exit => none
  | pid => some (number "The PID of the shell is " w.pid)
  | ppid => some (number "The PPID of the shell is " w.parentPid)
  | pwd => (w.vars.get? Environment.pwd).map fun value => [value, [Bytes.newline]]
  | get =>
    match list.get? 1 with
    | none => some question
    | some name =>
      match w.vars.get? name with
      | some value => some [value, [Bytes.newline]]
      | none => some [Bytes.ofString "unable to find variable\n"]
  | set => if (list.get? 1).isNone then some question else none

theorem get_spoken (list : TokenList) (w : World) :
    ∃ pieces, Builtin.get.spoken list w = some pieces := by
  simp only [Builtin.spoken]
  split
  · exact ⟨_, rfl⟩
  · split <;> exact ⟨_, rfl⟩

def Builtin.say (pieces : List Bytes) : Act CommandError Status := do
  Builtin.writeEach pieces
  pure .proceed

theorem say_offers (pieces : List Bytes) : MadeOf IsOffer False (Builtin.say pieces) :=
  .bind (writeEach_offers pieces) fun _ => .pure _

theorem var_step (name : Bytes) (s : Session) :
    Environment.var name s =
      ⟨(s.world.vars.get? name).elim (.error (.unset (Utf8.lossy name))) .ok, [], s⟩ := by
  change (Act.world >>= _) s = _
  rw [Act.bind_ok rfl]
  cases h : s.world.vars.get? name <;> simp [Act.world, Act.fail, Pure.pure, Act.pure]

section
variable {builtin : Builtin} {list : TokenList} {s : Session} {pieces : List Bytes}

theorem runPwd_of_spoken (h : Builtin.pwd.spoken list s.world = some pieces) :
    Builtin.runPwd s = Builtin.say pieces s := by
  obtain ⟨value, hvalue, rfl⟩ := Option.map_eq_some_iff.mp h
  have hvar : ((Environment.var Environment.pwd).mapError CommandError.env) s =
      ⟨.ok value, [], s⟩ :=
    Act.mapError_of_ok (by simp [var_step, hvalue])
  unfold Builtin.runPwd
  rw [Act.bind_ok (congrArg Step.result hvar), hvar]
  rfl

theorem runPwd_of_unset (h : s.world.vars.get? Environment.pwd = none) :
    Builtin.runPwd s = ⟨.error (.env (.unset (Utf8.lossy Environment.pwd))), [], s⟩ := by
  have hvar : ((Environment.var Environment.pwd).mapError CommandError.env) s =
      ⟨.error (.env (.unset (Utf8.lossy Environment.pwd))), [], s⟩ :=
    Act.mapError_of_error (by simp [var_step, h])
  unfold Builtin.runPwd
  rw [Act.bind_error (congrArg Step.result hvar), hvar]

theorem runGet_of_spoken (h : Builtin.get.spoken list s.world = some pieces) :
    Builtin.runGet list s = Builtin.say pieces s := by
  unfold Builtin.spoken at h
  unfold Builtin.runGet
  cases hname : list.get? 1 with
  | none =>
    simp only [hname, Option.some.injEq] at h ⊢
    subst h
    rfl
  | some name =>
    simp only [hname] at h ⊢
    have hfound : ((Environment.var name).attempt : Act CommandError _) s =
        ⟨.ok ((s.world.vars.get? name).elim (.error (.unset (Utf8.lossy name))) .ok), [], s⟩ := by
      simp [Act.attempt, var_step]
    rw [Act.bind_ok (congrArg Step.result hfound), hfound]
    cases hvalue : s.world.vars.get? name <;> simp only [hvalue, Option.some.injEq] at h <;>
      subst h <;> rfl

theorem run_of_spoken (h : builtin.spoken list s.world = some pieces) :
    builtin.run list s = Builtin.say pieces s := by
  cases builtin with
  | cd | exit => cases h
  | pid | ppid =>
    simp only [Builtin.spoken, Option.some.injEq] at h
    subst h
    rfl
  | pwd => exact runPwd_of_spoken h
  | get => exact runGet_of_spoken h
  | set =>
    simp only [Builtin.spoken] at h
    split at h
    · next hname =>
      change Builtin.runSet list s = _
      unfold Builtin.runSet
      rw [Option.isNone_iff_eq_none.mp hname]
      simp only [Option.some.injEq] at h
      subst h
      rfl
    · cases h

theorem world_of_spoken (h : builtin.spoken list s.world = some pieces) :
    (builtin.run list s).session.world = s.world := by
  rw [run_of_spoken h]
  exact (say_offers pieces).world_eq s

theorem changes_of_unspoken (h : builtin.spoken list s.world = none) :
    ∀ e ∈ (builtin.run list s).events, IsChange e := by
  cases builtin with
  | cd => exact (runCd_changes list).events s
  | exit => exact List.forall_mem_nil _
  | pid | ppid => cases h
  | pwd =>
    change ∀ e ∈ (Builtin.runPwd s).events, IsChange e
    rw [runPwd_of_unset (Option.map_eq_none_iff.mp h)]
    exact List.forall_mem_nil _
  | get =>
    obtain ⟨pieces, hpieces⟩ := get_spoken list s.world
    cases h.symm.trans hpieces
  | set =>
    simp only [Builtin.spoken] at h
    split at h
    · cases h
    · next hname =>
      rw [Option.isNone_iff_eq_none] at hname
      obtain ⟨name, hname⟩ := Option.ne_none_iff_exists'.mp hname
      exact (runSet_changes hname).events s

end

/-- Where a user is at home: where `HOME` says, or else the account database. -/
def World.home? (w : World) : Option Bytes :=
  (w.vars.get? Environment.home).filter (!·.isEmpty) <|> w.accountHome

def World.target? (w : World) (list : TokenList) : Option Bytes :=
  (list.get? 1).or w.home?

theorem homeDir_step (s : Session) :
    Environment.homeDir s = ⟨s.world.home?.elim (.error .noHome) .ok, [], s⟩ := by
  change (Act.world >>= _) s = _
  rw [Act.bind_ok rfl]
  unfold World.home?
  cases (s.world.vars.get? Environment.home).filter (!·.isEmpty) <|> s.world.accountHome <;> rfl

theorem awaitEnd_session (pid : Nat) (activity : List Activity) (s : Session) :
    (awaitEnd pid activity s).session = s :=
  (awaitEnd_madeOf pid activity).session_eq (fun _ he => he.isLife.isQuiet.not_output)
    (fun e he => by cases e <;> simp_all [IsOfChild, IsComplaint]) s

section
variable {s : Session} {path : Bytes} {w : World} {fault : Fault}

theorem changeDir_of_refused (h : s.world.moveTo path = .error fault) :
    Environment.changeDir path s = ⟨.error (.changeDir path fault), [], s⟩ := by
  simp [Environment.changeDir, Bind.bind, Act.bind, Act.world, h, Act.fail]

theorem changeDir_of_lost (h : s.world.moveTo path = .ok w)
    (hw : w.workingDirectory = .error fault) :
    Environment.changeDir path s = ⟨.error (.io fault), [], { s with world := w }⟩ := by
  simp [Environment.changeDir, Environment.currentDir, Bind.bind, Act.bind, Act.world, Act.setWorld,
    h, hw, Act.fail, Act.pure]

theorem changeDir_of_moved {current : Bytes} (h : s.world.moveTo path = .ok w)
    (hw : w.workingDirectory = .ok current) :
    Environment.changeDir path s =
      ⟨.ok current, [.bound Environment.pwd current],
        { s with world := { w with vars := w.vars.set Environment.pwd current } }⟩ := by
  simp [Environment.changeDir, Environment.currentDir, Environment.bind, Bind.bind, Act.bind,
    Act.world, Act.setWorld, Act.happen, h, hw, Act.pure, Pure.pure]

end

theorem exists_of_isOk {ε α : Type} {outcome : Except ε α} (h : outcome.isOk = true) :
    ∃ a, outcome = .ok a := by
  cases outcome with
  | ok a => exact ⟨a, rfl⟩
  | error error => cases h

section
variable {list : TokenList} {s : Session} {name : Bytes} {arguments : List Bytes}

theorem launch_of_refused {fault : Fault} (h : list.tokens = name :: arguments)
    (hexec : s.world.exec name arguments = .error fault) :
    launch list s =
      ⟨.error (.ofSpawn (Utf8.lossy name) fault), [.requested (name :: arguments)], s⟩ := by
  unfold launch
  simp only [h]
  rw [Act.bind_ok rfl, Act.bind_ok rfl]
  simp [Act.world, Act.happen, hexec, Act.fail]

/-- What a child has done to the world is done before the wait for it begins. -/
theorem launch_of_started {script : Script} (h : list.tokens = name :: arguments)
    (hexec : s.world.exec name arguments = .ok script) :
    launch list s =
      let lived := World.live script { s.world with nextPid := s.world.nextPid + 1 }
      let rest := awaitEnd s.world.nextPid lived.1 { s with world := lived.2 }
      ⟨rest.result,
        .requested (name :: arguments) :: .started (name :: arguments) s.world.vars ::
          .record (.spawned (Utf8.lossy name) s.world.nextPid) :: rest.events,
        { s with world := lived.2 }⟩ := by
  unfold launch
  simp only [h]
  rw [Act.bind_ok rfl, Act.bind_ok rfl]
  simp only [Act.world, Act.happen, hexec]
  rw [Act.bind_ok rfl, Act.bind_ok rfl, Act.bind_ok rfl, awaitEnd_session]
  simp [Act.setWorld, Act.log, Act.happen]

theorem afterFlush_of_ended {outcome : Outcome} {events : List Event} {t : Session}
    (h : launch list s = ⟨.ok outcome, events, t⟩) (name : Bytes) :
    afterFlush name list s =
      ⟨.ok .proceed, .record (.external (Utf8.lossy name)) :: (events ++
        if outcome.success then [] else [.record (.finished (Utf8.lossy name) outcome)]), t⟩ := by
  have hlaunch : ((launch list).mapError CommandError.process) s = ⟨.ok outcome, events, t⟩ :=
    Act.mapError_of_ok h
  unfold afterFlush
  rw [Act.bind_ok rfl]
  simp only [Act.log, Act.happen]
  rw [Act.bind_ok (congrArg Step.result hlaunch), hlaunch]
  cases outcome.success <;> rfl

theorem afterFlush_of_failed {error : ProcessError} {events : List Event} {t : Session}
    (h : launch list s = ⟨.error error, events, t⟩) (name : Bytes) :
    afterFlush name list s =
      ⟨.error (.process error), .record (.external (Utf8.lossy name)) :: events, t⟩ := by
  have hlaunch : ((launch list).mapError CommandError.process) s =
      ⟨.error (.process error), events, t⟩ :=
    Act.mapError_of_error h
  unfold afterFlush
  rw [Act.bind_ok rfl]
  simp only [Act.log, Act.happen]
  rw [Act.bind_error (congrArg Step.result hlaunch), hlaunch]
  rfl

theorem execute_of_ended {outcome : Outcome} {events : List Event} {t : Session}
    (htokens : list.tokens = name :: arguments) (hb : Builtin.ofName? name = none)
    (hflush : s.out.flush.1 = none)
    (h : launch list { s with out := s.out.flush.2 } = ⟨.ok outcome, events, t⟩) :
    execute list s =
      ⟨.ok .proceed, .flushed none :: .record (.external (Utf8.lossy name)) :: (events ++
        if outcome.success then [] else [.record (.finished (Utf8.lossy name) outcome)]), t⟩ := by
  have hname := TokenList.command?_eq_some_iff.mpr ⟨arguments, htokens⟩
  rw [execute_of_external hname hb, runExternal_of_flushed hflush, afterFlush_of_ended h]

theorem execute_of_failed {error : ProcessError} {events : List Event} {t : Session}
    (htokens : list.tokens = name :: arguments) (hb : Builtin.ofName? name = none)
    (hflush : s.out.flush.1 = none)
    (h : launch list { s with out := s.out.flush.2 } = ⟨.error error, events, t⟩) :
    execute list s =
      ⟨.error (.process error), .flushed none :: .record (.external (Utf8.lossy name)) :: events,
        t⟩ := by
  have hname := TokenList.command?_eq_some_iff.mpr ⟨arguments, htokens⟩
  rw [execute_of_external hname hb, runExternal_of_flushed hflush, afterFlush_of_failed h]

theorem afterFlush_step (name : Bytes) (list : TokenList) (s : Session) :
    (afterFlush name list s).session = (launch list s).session ∧
      ∃ later, (∀ e ∈ later, IsInternal e) ∧ (afterFlush name list s).events =
        .record (.external (Utf8.lossy name)) :: ((launch list s).events ++ later) := by
  cases h : (launch list s).result with
  | error error =>
    have hlaunch : launch list s =
        ⟨.error error, (launch list s).events, (launch list s).session⟩ := by rw [← h]
    rw [afterFlush_of_failed hlaunch]
    exact ⟨rfl, [], List.forall_mem_nil _, by rw [List.append_nil]⟩
  | ok outcome =>
    have hlaunch : launch list s =
        ⟨.ok outcome, (launch list s).events, (launch list s).session⟩ := by rw [← h]
    rw [afterFlush_of_ended hlaunch]
    refine ⟨rfl, _, ?_, rfl⟩
    split
    · exact List.forall_mem_nil _
    · intro e he
      rw [List.mem_singleton.mp he]
      trivial

theorem launch_starts {script : Script} (htokens : list.tokens = name :: arguments)
    (hexec : s.world.exec name arguments = .ok script) :
    .started (name :: arguments) s.world.vars ∈ (launch list s).events := by
  rw [launch_of_started htokens hexec]
  simp

theorem execute_starts {script : Script} (htokens : list.tokens = name :: arguments)
    (hb : Builtin.ofName? name = none) (hflush : s.out.flush.1 = none)
    (hexec : s.world.exec name arguments = .ok script) :
    .started (name :: arguments) s.world.vars ∈ (execute list s).events := by
  have hname := TokenList.command?_eq_some_iff.mpr ⟨arguments, htokens⟩
  rw [execute_of_external hname hb, runExternal_of_flushed hflush]
  obtain ⟨_, later, _, hevents⟩ := afterFlush_step name list { s with out := s.out.flush.2 }
  have hstart := launch_starts (s := { s with out := s.out.flush.2 }) htokens hexec
  simp [hevents, hstart]

end

/-- The binding that a command leaves when it has gone well: `set` binds its first argument to the
second, or to itself, and `cd` binds `PWD` to where it has come. -/
def bindingOf (list : TokenList) (step : Step CommandError Status) : Option Variable :=
  match step.result, list.tokens with
  | .ok _, command :: arguments =>
    if command = Bytes.ofString "set" then
      match arguments with
      | [] => none
      | [name] => some ⟨name, name⟩
      | name :: value :: _ => some ⟨name, value⟩
    else if command = Bytes.ofString "cd" then
      step.session.world.workingDirectory.toOption.map (⟨Environment.pwd, ·⟩)
    else none
  | _, _ => none

/-- All that one command can do to the world. -/
inductive Effect (list : TokenList) (s : Session) (step : Step CommandError Status) : Prop where
  | still (made : bindingOf list step = none) (world : step.session.world = s.world)
  | bound (v : Variable) (made : bindingOf list step = some v)
      (command : list.command? = some (Bytes.ofString "set")) (argument : list.get? 1 = some v.name)
      (name : Variables.validName v.name = true) (value : v.value.hasNul = false)
      (world : step.session.world = { s.world with vars := s.world.vars.set v.name v.value })
  | moved (target : Bytes) (w : World) (current : Bytes)
      (made : bindingOf list step = some ⟨Environment.pwd, current⟩)
      (command : list.command? = some (Bytes.ofString "cd")) (move : s.world.moveTo target = .ok w)
      (here : w.workingDirectory = .ok current)
      (world : step.session.world = { w with vars := w.vars.set Environment.pwd current })
  /-- The move is made, and then where it led to cannot be told. -/
  | strayed (target : Bytes) (w : World) (fault : Fault) (made : bindingOf list step = none)
      (command : list.command? = some (Bytes.ofString "cd")) (move : s.world.moveTo target = .ok w)
      (lost : w.workingDirectory = .error fault) (world : step.session.world = w)
  | ran (name : Bytes) (arguments : List Bytes) (script : Script)
      (made : bindingOf list step = none) (tokens : list.tokens = name :: arguments)
      (exec : s.world.exec name arguments = .ok script)
      (started : .started (name :: arguments) s.world.vars ∈ step.events)
      (world : step.session.world =
        (World.live script { s.world with nextPid := s.world.nextPid + 1 }).2)

section
variable {list : TokenList} {s : Session}

theorem bindingOf_of_error {step : Step CommandError Status} {error : CommandError}
    (h : step.result = .error error) : bindingOf list step = none := by
  unfold bindingOf
  rw [h]

theorem bindingOf_of_other {name : Bytes} (h : list.command? = some name)
    (hset : name ≠ Bytes.ofString "set") (hcd : name ≠ Bytes.ofString "cd")
    (step : Step CommandError Status) : bindingOf list step = none := by
  unfold bindingOf
  split
  · next command arguments _ htokens =>
    have hname := h.symm.trans (TokenList.command?_eq_some_iff.mpr ⟨arguments, htokens⟩)
    rw [← Option.some.inj hname, if_neg hset, if_neg hcd]
  · rfl

theorem effect_of_external {name : Bytes} (hname : list.command? = some name)
    (hb : Builtin.ofName? name = none) : Effect list s (execute list s) := by
  have hset : name ≠ Bytes.ofString "set" := by
    rintro rfl
    exact absurd hb (by decide)
  have hcd : name ≠ Bytes.ofString "cd" := by
    rintro rfl
    exact absurd hb (by decide)
  have hmade := bindingOf_of_other hname hset hcd (execute list s)
  have hrun := execute_of_external hname hb (s := s)
  obtain ⟨arguments, htokens⟩ := TokenList.command?_eq_some_iff.mp hname
  cases hflush : s.out.flush.1 with
  | some fault =>
    rw [runExternal_of_unflushed hflush] at hrun
    exact .still hmade (by rw [hrun])
  | none =>
    rw [runExternal_of_flushed hflush] at hrun
    have hsession := (afterFlush_step name list { s with out := s.out.flush.2 }).1
    cases hexec : s.world.exec name arguments with
    | error fault =>
      have hlaunch := launch_of_refused (s := { s with out := s.out.flush.2 }) htokens hexec
      refine .still hmade ?_
      rw [hrun]
      dsimp only
      rw [hsession, hlaunch]
    | ok script =>
      have hlaunch := launch_of_started (s := { s with out := s.out.flush.2 }) htokens hexec
      have hstart := execute_starts htokens hb hflush hexec
      refine .ran name arguments script hmade htokens hexec hstart ?_
      rw [hrun]
      dsimp only
      rw [hsession, hlaunch]

theorem Effect.record {step : Step CommandError Status} (h : Effect list s step) (event : Event) :
    Effect list s ⟨step.result, event :: step.events, step.session⟩ := by
  cases h with
  | still made world => exact .still made world
  | bound v made command argument name value world =>
    exact .bound v made command argument name value world
  | moved target w current made command move here world =>
    exact .moved target w current made command move here world
  | strayed target w fault made command move lost world =>
    exact .strayed target w fault made command move lost world
  | ran name arguments script made tokens exec started world =>
    exact .ran name arguments script made tokens exec (List.mem_cons_of_mem _ started) world

theorem setVar_of_badName {name : Bytes} (h : Variables.validName name = false) (value : Bytes)
    (s : Session) :
    Environment.setVar name value s = ⟨.error (.badName (Utf8.lossy name)), [], s⟩ := by
  simp [Environment.setVar, h, Act.fail]

theorem setVar_of_badValue {name value : Bytes} (hname : Variables.validName name = true)
    (hvalue : value.hasNul = true) (s : Session) :
    Environment.setVar name value s = ⟨.error (.badValue "contains a NUL byte"), [], s⟩ := by
  simp [Environment.setVar, hname, hvalue, Act.fail]

theorem setVar_of_good {name value : Bytes} (hname : Variables.validName name = true)
    (hvalue : value.hasNul = false) (s : Session) :
    Environment.setVar name value s =
      ⟨.ok (), [.bound name value],
        { s with world := { s.world with vars := s.world.vars.set name value } }⟩ := by
  simp only [Environment.setVar, hname, hvalue]
  rfl

theorem setVar_step (name value : Bytes) (s : Session) :
    (∃ error, Environment.setVar name value s = ⟨.error error, [], s⟩) ∨
      Variables.validName name = true ∧ value.hasNul = false ∧
        Environment.setVar name value s =
          ⟨.ok (), [.bound name value],
            { s with world := { s.world with vars := s.world.vars.set name value } }⟩ := by
  cases hname : Variables.validName name with
  | false => exact .inl ⟨_, setVar_of_badName hname value s⟩
  | true =>
    cases hvalue : value.hasNul with
    | true => exact .inl ⟨_, setVar_of_badValue hname hvalue s⟩
    | false => exact .inr ⟨rfl, rfl, setVar_of_good hname hvalue s⟩

theorem runSet_step {name : Bytes} (h : list.get? 1 = some name) (s : Session) :
    let value := (list.get? 2).getD name
    (∃ error, Builtin.runSet list s = ⟨.error error, [], s⟩) ∨
      Variables.validName name = true ∧ value.hasNul = false ∧
        Builtin.runSet list s =
          ⟨.ok .proceed, [.bound name value],
            { s with world := { s.world with vars := s.world.vars.set name value } }⟩ := by
  intro value
  unfold Builtin.runSet
  rw [h]
  dsimp only
  rcases setVar_step name value s with ⟨error, hset⟩ | ⟨hname, hvalue, hset⟩
  · have hfail : ((Environment.setVar name value).mapError CommandError.env) s =
        ⟨.error (.env error), [], s⟩ :=
      Act.mapError_of_error hset
    exact .inl ⟨.env error, by rw [Act.bind_error (congrArg Step.result hfail), hfail]⟩
  · have hdone : ((Environment.setVar name value).mapError CommandError.env) s =
        ⟨.ok (), [.bound name value],
          { s with world := { s.world with vars := s.world.vars.set name value } }⟩ :=
      Act.mapError_of_ok hset
    refine .inr ⟨hname, hvalue, ?_⟩
    rw [Act.bind_ok (congrArg Step.result hdone), hdone]
    rfl

theorem bindingOf_set (h : list.command? = some (Bytes.ofString "set"))
    {step : Step CommandError Status} {status : Status} (hok : step.result = .ok status) :
    bindingOf list step = (list.get? 1).map fun name => ⟨name, (list.get? 2).getD name⟩ := by
  obtain ⟨arguments, htokens⟩ := TokenList.command?_eq_some_iff.mp h
  unfold bindingOf
  simp only [hok, htokens, if_true, TokenList.get?]
  cases arguments with
  | nil => rfl
  | cons name more => cases more <;> rfl

theorem effect_of_set (h : list.command? = some (Bytes.ofString "set")) :
    Effect list s (Builtin.runSet list s) := by
  cases hname : list.get? 1 with
  | none =>
    have hspoken : Builtin.set.spoken list s.world =
        some [Bytes.ofString "please enter a variable\n"] := by
      simp [Builtin.spoken, hname]
    refine .still ?_ (world_of_spoken hspoken)
    cases hresult : (Builtin.runSet list s).result with
    | error error => exact bindingOf_of_error hresult
    | ok status => rw [bindingOf_set h hresult, hname, Option.map_none]
  | some name =>
    rcases runSet_step hname s with ⟨error, hrun⟩ | ⟨hvalid, hvalue, hrun⟩
    · exact .still (bindingOf_of_error (congrArg Step.result hrun)) (by rw [hrun])
    · refine .bound ⟨name, (list.get? 2).getD name⟩ ?_ h hname hvalid hvalue (by rw [hrun])
      rw [bindingOf_set h (congrArg Step.result hrun), hname, Option.map_some]

section
variable {path : Bytes} {w : World} {fault : Fault}

theorem goTo_of_refused (h : s.world.moveTo path = .error fault) :
    goTo path s = ⟨.error (.changeDir path fault), [], s⟩ := by
  have hcd := changeDir_of_refused h
  unfold goTo
  rw [Act.bind_error (congrArg Step.result hcd), hcd]

theorem goTo_of_lost (h : s.world.moveTo path = .ok w) (hw : w.workingDirectory = .error fault) :
    goTo path s = ⟨.error (.io fault), [], { s with world := w }⟩ := by
  have hcd := changeDir_of_lost h hw
  unfold goTo
  rw [Act.bind_error (congrArg Step.result hcd), hcd]

theorem goTo_of_moved {current : Bytes} (h : s.world.moveTo path = .ok w)
    (hw : w.workingDirectory = .ok current) :
    goTo path s = ⟨.ok .proceed,
      [.bound Environment.pwd current, .record (.moved (Utf8.lossy current))],
      { s with world := { w with vars := w.vars.set Environment.pwd current } }⟩ := by
  have hcd := changeDir_of_moved h hw
  unfold goTo
  rw [Act.bind_ok (congrArg Step.result hcd), hcd]
  rfl

theorem runCd_of_homeless (h : s.world.target? list = none) :
    Builtin.runCd list s = ⟨.error (.env .noHome), [], s⟩ := by
  obtain ⟨hargument, hhome⟩ := Option.or_eq_none_iff.mp h
  have hstep := homeDir_step s
  rw [hhome] at hstep
  unfold Builtin.runCd Act.mapError
  rw [hargument]
  dsimp only
  rw [Act.bind_error (congrArg Step.result hstep), hstep]
  rfl

theorem runCd_of_target (h : s.world.target? list = some path) :
    Builtin.runCd list s = (goTo path).mapError .env s := by
  unfold Builtin.runCd
  cases hargument : list.get? 1 with
  | some target =>
    rw [World.target?, hargument] at h
    cases h
    rfl
  | none =>
    rw [World.target?, hargument] at h
    have hhome : s.world.home? = some path := h
    have hstep := homeDir_step s
    rw [hhome] at hstep
    unfold Act.mapError
    dsimp only
    rw [Act.bind_ok (congrArg Step.result hstep), hstep]
    rfl

end

theorem effect_of_cd (h : list.command? = some (Bytes.ofString "cd")) :
    Effect list s (Builtin.runCd list s) := by
  cases haim : s.world.target? list with
  | none =>
    have hrun := runCd_of_homeless haim
    exact .still (bindingOf_of_error (congrArg Step.result hrun)) (by rw [hrun])
  | some target =>
    have hrun := runCd_of_target haim
    cases hmove : s.world.moveTo target with
    | error fault =>
      have hfail := hrun.trans (Act.mapError_of_error (goTo_of_refused hmove))
      exact .still (bindingOf_of_error (congrArg Step.result hfail)) (by rw [hfail])
    | ok w =>
      cases hw : w.workingDirectory with
      | error fault =>
        have hfail := hrun.trans (Act.mapError_of_error (goTo_of_lost hmove hw))
        refine .strayed target w fault ?_ h hmove hw (by rw [hfail])
        exact bindingOf_of_error (congrArg Step.result hfail)
      | ok current =>
        have hdone := hrun.trans (Act.mapError_of_ok (goTo_of_moved hmove hw))
        refine .moved target w current ?_ h hmove hw (by rw [hdone])
        obtain ⟨arguments, htokens⟩ := TokenList.command?_eq_some_iff.mp h
        have hcd : Bytes.ofString "cd" ≠ Bytes.ofString "set" := by decide
        have hhere : World.workingDirectory
            { w with vars := w.vars.set Environment.pwd current } = .ok current := hw
        simp [bindingOf, hdone, htokens, hcd, hhere, Except.toOption]

theorem effect_of_builtin {name : Bytes} {builtin : Builtin} (hname : list.command? = some name)
    (hb : Builtin.ofName? name = some builtin) : Effect list s (builtin.run list s) := by
  have hcommand := Builtin.ofName?_eq_some_iff.mp hb
  subst hcommand
  have hother (hset : Bytes.ofString builtin.name ≠ Bytes.ofString "set")
      (hcd : Bytes.ofString builtin.name ≠ Bytes.ofString "cd")
      (hoffers : MadeOf IsOffer False (builtin.run list)) : Effect list s (builtin.run list s) :=
    .still (bindingOf_of_other hname hset hcd _) (hoffers.world_eq s)
  cases builtin with
  | cd => exact effect_of_cd hname
  | set => exact effect_of_set hname
  | exit | pid | ppid | pwd | get =>
    exact hother (by decide) (by decide) (builtin_offers (by decide) (by decide) list)

theorem execute_effect (list : TokenList) (s : Session) : Effect list s (execute list s) := by
  cases hname : list.command? with
  | none =>
    have hrun := execute_of_empty hname (s := s)
    have htokens : list.tokens = [] := by
      simpa [TokenList.command?, TokenList.get?] using hname
    exact .still (by simp [bindingOf, hrun, htokens]) (by rw [hrun])
  | some name =>
    cases hb : Builtin.ofName? name with
    | none => exact effect_of_external hname hb
    | some builtin =>
      rw [execute_of_builtin hname hb]
      exact (effect_of_builtin hname hb).record _

/-- What binding a name that is valid keeps of the store, every command keeps: a child has its own
variables, and where a built-in moves, it binds `PWD`. -/
theorem execute_keeps_vars {P : Variables → Prop} (hs : P s.world.vars)
    (hset : ∀ vars name value, Variables.validName name = true → P vars → P (vars.set name value)) :
    P (execute list s).session.world.vars := by
  cases execute_effect list s with
  | still _ world => exact world ▸ hs
  | bound v _ _ _ name _ world =>
    rw [world]
    exact hset _ _ _ name hs
  | moved target w current _ _ move _ world =>
    rw [world]
    exact hset _ _ _ (by decide) (World.moveTo_vars move ▸ hs)
  | strayed target w fault _ _ move _ world =>
    rw [world, World.moveTo_vars move]
    exact hs
  | ran name arguments script _ _ _ _ world =>
    rw [world, World.live_vars]
    exact hs

theorem launch_started {argv : List Bytes} {vars : Variables} {name : Bytes}
    {arguments : List Bytes} (htokens : list.tokens = name :: arguments)
    (h : .started argv vars ∈ (launch list s).events) :
    argv = name :: arguments ∧ vars = s.world.vars ∧
      ∃ script, s.world.exec name arguments = .ok script := by
  cases hexec : s.world.exec name arguments with
  | error fault =>
    rw [launch_of_refused htokens hexec] at h
    simp at h
  | ok script =>
    rw [launch_of_started htokens hexec] at h
    have hlife := (awaitEnd_madeOf s.world.nextPid
      (World.live script { s.world with nextPid := s.world.nextPid + 1 }).1).events
        { s with world := (World.live script { s.world with nextPid := s.world.nextPid + 1 }).2 }
    simp only [List.mem_cons, reduceCtorEq, false_or, Event.started.injEq] at h
    rcases h with ⟨rfl, rfl⟩ | h
    · exact ⟨rfl, rfl, script, rfl⟩
    · exact absurd trivial (hlife _ h).isLife.not_start

theorem execute_started {argv : List Bytes} {vars : Variables}
    (h : .started argv vars ∈ (execute list s).events) :
    argv = list.tokens ∧ vars = s.world.vars ∧ s.out.flush.1 = none ∧
      ∃ name arguments script, list.tokens = name :: arguments ∧ Builtin.ofName? name = none ∧
        s.world.exec name arguments = .ok script := by
  cases hname : list.command? with
  | none =>
    rw [execute_of_empty hname] at h
    cases h
  | some name =>
    cases hb : Builtin.ofName? name with
    | some builtin =>
      rw [execute_of_builtin hname hb] at h
      have hstart : .started argv vars ∈ (builtin.run list s).events := by simpa using h
      exact absurd (Event.started_isStart argv vars)
        ((builtin_starts_nothing builtin list).events s _ hstart)
    | none =>
      obtain ⟨arguments, htokens⟩ := TokenList.command?_eq_some_iff.mp hname
      rw [execute_of_external hname hb] at h
      cases hflush : s.out.flush.1 with
      | some fault =>
        rw [runExternal_of_unflushed hflush] at h
        simp at h
      | none =>
        rw [runExternal_of_flushed hflush] at h
        obtain ⟨_, later, hlater, hevents⟩ :=
          afterFlush_step name list { s with out := s.out.flush.2 }
        simp only [hevents, List.mem_cons, List.mem_append, reduceCtorEq, false_or] at h
        rcases h with h | h
        · obtain ⟨hargv, hvars, script, hexec⟩ := launch_started htokens h
          exact ⟨hargv.trans htokens.symm, hvars, rfl, name, arguments, script, htokens, hb, hexec⟩
        · exact absurd trivial (hlater _ h).not_start

end

section
variable {s : Session}

theorem writeEach_of_takesAll (h : s.out.TakesAll) (pieces : List Bytes) :
    ∃ out : Channel, Builtin.writeEach pieces s =
      ⟨.ok (), pieces.flatMap offered, { s with out := out }⟩ := by
  suffices hpieces : ∃ out : Channel, (pieces.forM Act.write : Act Fault Unit) s =
      ⟨.ok (), pieces.flatMap offered, { s with out := out }⟩ by
    obtain ⟨out, hpieces⟩ := hpieces
    exact ⟨out, Act.mapError_of_ok hpieces⟩
  induction pieces generalizing s with
  | nil => exact ⟨s.out, rfl⟩
  | cons piece pieces ih =>
    obtain ⟨out, hout, hpiece⟩ : ∃ out : Channel, out.TakesAll ∧
        Act.write piece s = ⟨.ok (), offered piece, { s with out := out }⟩ := by
      rw [Act.write_step, offered]
      split
      · exact ⟨s.out, h, rfl⟩
      · refine ⟨_, h.write piece, ?_⟩
        simp [h.write_whole piece, WriteReply.fault?]
    obtain ⟨last, hpieces⟩ := ih (s := { s with out := out }) hout
    refine ⟨last, ?_⟩
    rw [List.forM_eq_forM, List.forM_cons, Act.bind_ok (congrArg Step.result hpiece), hpiece]
    simp only [← List.forM_eq_forM, hpieces]
    rfl

theorem written_of_spoken {ε : Type} {line name : Bytes} {builtin : Builtin} {pieces : List Bytes}
    (shell : Shell) (h : s.out.TakesAll) (hname : (tokenize line).command? = some name)
    (hb : Builtin.ofName? name = some builtin)
    (hspoken : builtin.spoken (tokenize line) s.world = some pieces) :
    written (shell.executeLine line s : Step ε Status).events = pieces.flatten := by
  obtain ⟨out, hpieces⟩ := writeEach_of_takesAll h pieces
  have hsay : Builtin.say pieces s =
      ⟨.ok .proceed, pieces.flatMap offered, { s with out := out }⟩ := by
    rw [Builtin.say, Act.bind_ok (congrArg Step.result hpieces), hpieces]
    simp [Pure.pure, Act.pure]
  have hrun := execute_of_builtin hname hb (s := s)
  rw [run_of_spoken hspoken, hsay] at hrun
  rw [executeLine_of_ok shell (congrArg Step.result hrun), hrun]
  change written (pieces.flatMap offered) = pieces.flatten
  rw [written, List.flatMap_assoc, List.flatten_eq_flatMap]
  exact List.flatMap_congr fun piece _ => written_offered piece

end
end LineShell
