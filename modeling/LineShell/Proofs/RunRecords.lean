import LineShell.Proofs.ChildLives
import LineShell.Proofs.ExactDiagnostics
import LineShell.Proofs.ExactDispatch
import LineShell.Proofs.Rearrangements

/-!
# The records of a run

Each line leaves a trail of records, and which they are can be told from its tokens and the world
that it finds. A run leaves the trails of its lines, one after another, and a last record if the
input ends it. Children are numbered upwards, so all that is noted of a child stands in the trail of
the line that started it. Its end does too, unless the wait for it failed.
-/
namespace LineShell

open Event (IsOffer IsReport)

def Doing.record? (pid : Nat) : Doing → Option Record
  | wrote _ _ => none
  | stopped signal => some (.stopped pid signal.number)

def End.record (pid : Nat) : End → Record
  | exited code => .exited pid code.toNat
  | killed signal _ => .killed pid signal.number

def stopsOf (pid : Nat) (doings : List Doing) : List Record :=
  doings.filterMap (Doing.record? pid)

/-- What is noted last of a program: how it finished, unless it exited with 0. -/
def finishOf (name : String) (outcome : Outcome) : List Record :=
  if outcome = .exited 0 then [] else [.finished name outcome]

/-- The records that a command leaves in a world that it finds. -/
inductive Trail (list : TokenList) (w : World) : List Record → Prop where
  | blank (tokens : list.tokens = []) : Trail list w []
  | builtin {builtin : Builtin} (command : list.command? = some (Bytes.ofString builtin.name))
      (other : builtin ≠ .cd) : Trail list w [.builtin builtin.name]
  | stayed {error : EnvError} (command : list.command? = some (Bytes.ofString "cd"))
      (fails : CdFails list w error) : Trail list w [.builtin "cd"]
  | moved {target current : Bytes} {w' : World}
      (command : list.command? = some (Bytes.ofString "cd")) (aim : w.target? list = some target)
      (move : w.moveTo target = .ok w') (here : w'.workingDirectory = .ok current) :
      Trail list w [.builtin "cd", .moved (Utf8.lossy current)]
  | unstarted {name : Bytes} {arguments : List Bytes} {fault : Fault}
      (tokens : list.tokens = name :: arguments) (external : Builtin.ofName? name = none)
      (exec : w.exec name arguments = .error fault) : Trail list w [.external (Utf8.lossy name)]
  /-- The child's end is lost, so the wait for it fails. -/
  | unawaited {name : Bytes} {arguments : List Bytes} {script : Script} {doings : List Doing}
      (tokens : list.tokens = name :: arguments) (external : Builtin.ofName? name = none)
      (exec : w.exec name arguments = .ok script) (forgotten : w.keepsEnded = false)
      (life : (World.live script { w with nextPid := w.nextPid + 1 }).1 =
        doings.map Doing.activity) :
      Trail list w (.external (Utf8.lossy name) :: .spawned (Utf8.lossy name) w.nextPid ::
        stopsOf w.nextPid doings)
  | ended {name : Bytes} {arguments : List Bytes} {script : Script} {doings : List Doing}
      {ending : End} (tokens : list.tokens = name :: arguments)
      (external : Builtin.ofName? name = none) (exec : w.exec name arguments = .ok script)
      (kept : w.keepsEnded = true)
      (life : (World.live script { w with nextPid := w.nextPid + 1 }).1 =
        lifeOf doings ending) :
      Trail list w (.external (Utf8.lossy name) :: .spawned (Utf8.lossy name) w.nextPid ::
        (stopsOf w.nextPid doings ++ ending.record w.nextPid ::
          finishOf (Utf8.lossy name) ending.outcome))

namespace Record

def pid? : Record → Option Nat
  | spawned _ pid | exited pid _ | killed pid _ | stopped pid _ => some pid
  | _ => none

def isEnd : Record → Bool
  | exited _ _ | killed _ _ => true
  | _ => false

end Record

def ends (pid : Nat) (trail : List Record) : Nat :=
  trail.countP fun record => record.isEnd && record.pid? = some pid

namespace Shell

variable (shell : Shell)

/-- The records of lines that are executed one after another, line by line. -/
def trails (lines : List Bytes) (s : Session) : List (List Record) :=
  (shell.turns lines s).map fun turn => records turn.step.events

end Shell

namespace Event

def IsRecord : Event → Prop
  | record _ => True
  | _ => False

variable {e : Event}

theorem IsOffer.not_record (h : IsOffer e) : ¬ IsRecord e := by
  cases e <;> simp_all [IsOffer, IsRecord]

theorem IsReport.not_record (h : IsReport e) : ¬ IsRecord e := by
  cases e <;> simp_all [IsReport, IsRecord]

end Event

theorem records_append (before after : List Event) :
    records (before ++ after) = records before ++ records after :=
  List.filterMap_append

theorem records_eq_nil {events : List Event} (h : ∀ e ∈ events, ¬ e.IsRecord) :
    records events = [] := by
  rw [records, List.filterMap_eq_nil_iff]
  intro e he
  cases e with
  | record record => exact absurd trivial (h _ he)
  | _ => rfl

theorem records_doings (pid : Nat) (doings : List Doing) :
    records (doings.map (Doing.shown pid)) = stopsOf pid doings := by
  rw [records, List.filterMap_map]
  refine congrArg (fun read => doings.filterMap read) (funext fun doing => ?_)
  cases doing <;> rfl

theorem records_life (pid : Nat) (doings : List Doing) (ending : End) :
    records (shownLife pid doings ending) = stopsOf pid doings ++ [ending.record pid] := by
  rw [shownLife, records_append, records_doings]
  cases ending <;> rfl

section
variable {list : TokenList} {s : Session} {builtin : Builtin} {name : Bytes}

theorem records_of_builtin (builtin : Builtin)
    (h : list.command? = some (Bytes.ofString builtin.name)) (s : Session) :
    records (execute list s).events =
      .builtin builtin.name :: records (builtin.run list s).events := by
  rw [execute_of_builtin h (Builtin.ofName?_eq_some_iff.mpr rfl), Builtin.lossy_name]
  rfl

theorem records_of_offers {act : Act CommandError Status} (h : Act.MadeOf IsOffer False act) :
    records (act s).events = [] :=
  records_eq_nil fun e he => (h.events s e he).not_record

theorem records_runSet (list : TokenList) (s : Session) :
    records (Builtin.runSet list s).events = [] := by
  cases hname : list.get? 1 with
  | none =>
    have hspoken : Builtin.set.spoken list s.world =
        some [Bytes.ofString "please enter a variable\n"] := by
      simp [Builtin.spoken, hname]
    have hrun : Builtin.runSet list s = _ := run_of_spoken hspoken
    rw [hrun]
    exact records_of_offers (say_offers _)
  | some name =>
    rcases runSet_step hname s with ⟨error, hrun⟩ | ⟨_, _, hrun⟩
    · rw [hrun]
      rfl
    · rw [hrun]
      rfl

theorem records_run (other : builtin ≠ .cd) : records (builtin.run list s).events = [] := by
  by_cases hset : builtin = .set
  · subst hset
    exact records_runSet list s
  · exact records_of_offers (builtin_offers other hset list)

theorem records_runCd_of_fails {error : EnvError} (h : CdFails list s.world error) :
    records (Builtin.runCd list s).events = [] := by
  cases h with
  | homeless aim =>
    rw [runCd_of_homeless aim]
    rfl
  | unmoved aim move =>
    rw [runCd_of_target aim, Act.mapError_of_error (goTo_of_refused move)]
    rfl
  | lost aim move here =>
    rw [runCd_of_target aim, Act.mapError_of_error (goTo_of_lost move here)]
    rfl

theorem finishOf_eq (name : String) (outcome : Outcome) :
    records (if outcome.success then [] else [.record (.finished name outcome)]) =
      finishOf name outcome := by
  cases outcome with
  | exited code =>
    by_cases hcode : code = 0
    · subst hcode
      rfl
    · simp [Outcome.success, finishOf, hcode, records]
  | signaled signal => rfl

theorem Trail.records_eq {trail : List Record} (h : Trail list s.world trail)
    (hflush : s.out.flush.1 = none) : records (execute list s).events = trail := by
  cases h with
  | blank tokens =>
    rw [execute_of_empty (by rw [TokenList.command?, TokenList.get?, tokens]; rfl)]
    rfl
  | builtin command other => rw [records_of_builtin _ command, records_run other]
  | stayed command fails =>
    have hrun := records_of_builtin .cd command s
    rw [hrun]
    exact congrArg (_ :: ·) (records_runCd_of_fails fails)
  | moved command aim move here =>
    have hrun := records_of_builtin .cd command s
    have hcd : Builtin.cd.run list s = _ :=
      (runCd_of_target aim).trans (Act.mapError_of_ok (goTo_of_moved move here))
    rw [hrun, hcd]
    rfl
  | unstarted tokens external exec =>
    have hlaunch := launch_of_refused (s := { s with out := s.out.flush.2 }) tokens exec
    rw [execute_of_failed tokens external hflush hlaunch]
    rfl
  | @unawaited name arguments script doings tokens external exec forgotten life =>
    have hlaunch := launch_of_forgotten (s := { s with out := s.out.flush.2 }) tokens exec life
    rw [execute_of_failed tokens external hflush hlaunch]
    exact congrArg (_ :: _ :: ·) (records_doings s.world.nextPid doings)
  | @ended name arguments script doings ending tokens external exec kept life =>
    have hlaunch := launch_of_lived (s := { s with out := s.out.flush.2 }) tokens exec life
    have hrest : records (shownLife s.world.nextPid doings ending ++
        if ending.outcome.success then []
        else [.record (.finished (Utf8.lossy name) ending.outcome)]) =
          stopsOf s.world.nextPid doings ++ ending.record s.world.nextPid ::
            finishOf (Utf8.lossy name) ending.outcome := by
      rw [records_append, records_life, finishOf_eq, List.append_assoc]
      rfl
    rw [execute_of_ended tokens external hflush hlaunch]
    exact congrArg (_ :: _ :: ·) hrest

theorem Trail.unique {w : World} {trail other : List Record} (h : Trail list w trail)
    (h' : Trail list w other) : trail = other := by
  let s : Session := ⟨w, .accepting, .accepting⟩
  have hrecords : records (execute list s).events = trail := h.records_eq (s := s) rfl
  exact hrecords.symm.trans (h'.records_eq (s := s) rfl)

end

section
variable {pid number : Nat} {record : Record} {doings : List Doing} {name : String}
  {outcome : Outcome}

end

section
variable {list : TokenList} {w : World} {trail : List Record}

end

section
variable {list : TokenList} {s : Session}

end

section
variable (shell : Shell) {ε : Type} {s : Session}

end

section
variable {trails : List (List Record)} {trail : List Record} {k : Nat} {pid : Nat}

end

namespace Shell

variable {shell : Shell} {s : Session}

theorem records_prompting : records shell.prompting = [] := by
  rw [prompting, records_append, offered]
  split <;> rfl

theorem records_turns (turns : List Turn) :
    records (turns.flatMap shell.seenOf) =
      (turns.map fun turn => records turn.step.events).flatten := by
  induction turns with
  | nil => rfl
  | cons turn later ih =>
    rw [List.flatMap_cons, records_append, ih, seenOf, records_append, records_prompting]
    rfl

theorem InTurn.records {lines : List Bytes} {closing : List Event} {run : Step ShellError Nat}
    (h : shell.InTurn lines s closing run) :
    LineShell.records run.events = (shell.trails lines s).flatten ++ LineShell.records closing := by
  rw [h.events, records_append, records_turns]
  rfl

end Shell

end LineShell
