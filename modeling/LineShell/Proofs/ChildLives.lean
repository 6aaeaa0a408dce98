import LineShell.Proofs.CommandEffects
import LineShell.Proofs.Waiting

/-!
# One child at a time

A child writes and is stopped and resumed until it exits or is killed. The wait for it lasts as long
as it lives: no stop ends the wait or has a part in its outcome, and once it is over the child has
ended. So between the start of a child and its end nothing is seen but this child, and when a line
is read there is none.
-/
namespace LineShell

open Act (MadeOf)

/-- What a child does that can be seen of it, before it ends. -/
inductive Doing where
  | wrote (outlet : Outlet) (bytes : Bytes)
  | stopped (signal : Signal)
  deriving DecidableEq, Repr

inductive End where
  | exited (code : UInt8)
  | killed (signal : Signal) (coreDumped : Bool)
  deriving DecidableEq, Repr

namespace Doing

def activity : Doing → Activity
  | wrote outlet bytes => .wrote outlet bytes
  | stopped signal => .changed (Change.stopped signal).word

def shown (pid : Nat) : Doing → Event
  | wrote outlet bytes => .childWrote outlet bytes
  | stopped signal => .record (.stopped pid signal.number)

end Doing

namespace End

def change : End → Change
  | exited code => .exited code
  | killed signal coreDumped => .killed signal coreDumped

def outcome : End → Outcome
  | exited code => .exited code.toNat
  | killed signal _ => .signaled signal.number

def shown (pid : Nat) : End → Event
  | exited code => .record (.exited pid code.toNat)
  | killed signal _ => .record (.killed pid signal.number)

end End

/-- All that the system tells of a child: what it does, and then how it ends. -/
def lifeOf (doings : List Doing) (ending : End) : List Activity :=
  doings.map Doing.activity ++ [.changed ending.change.word]

/-- What is seen of a child while its parent waits for it. -/
def shownLife (pid : Nat) (doings : List Doing) (ending : End) : List Event :=
  doings.map (Doing.shown pid) ++ [ending.shown pid]

namespace Event

def isBirth : Event → Bool
  | started _ _ => true
  | _ => false

def isDeath : Event → Bool
  | record (.exited _ _) | record (.killed _ _) => true
  | _ => false

/-- Neither the start of a child nor anything that is seen of one. -/
def IsApart : Event → Prop
  | started _ _ | childWrote _ _ | record (.spawned _ _) | record (.stopped _ _) => False
  | record (.exited _ _) | record (.killed _ _) => False
  | _ => True

end Event

open Event (IsOffer IsReport IsApart IsOfChild)

def births (events : List Event) : Nat := events.countP Event.isBirth

def deaths (events : List Event) : Nat := events.countP Event.isDeath

/-- Never is there more than one child, and where anything is seen that is not of a child, there is
none. -/
structure OneAtATime (events : List Event) : Prop where
  one : ∀ before after, events = before ++ after →
    births before = deaths before ∨ births before = deaths before + 1
  alone : ∀ before e after, events = before ++ e :: after → ¬ e.IsOfChild →
    births before = deaths before
  ended : births events = deaths events

/-- One event, seen while this child lives or while there is none, and what lives behind it. -/
inductive Follows : Option Nat → Event → Option Nat → Prop where
  | apart {event : Event} (h : event.IsApart) : Follows none event none
  | born (pid : Nat) {argv : List Bytes} {vars : Variables} :
      Follows none (.started argv vars) (some pid)
  | spawned (name : String) (pid : Nat) :
      Follows (some pid) (.record (.spawned name pid)) (some pid)
  | wrote (pid : Nat) (outlet : Outlet) (bytes : Bytes) :
      Follows (some pid) (.childWrote outlet bytes) (some pid)
  | stopped (pid signal : Nat) : Follows (some pid) (.record (.stopped pid signal)) (some pid)
  | exited (pid code : Nat) : Follows (some pid) (.record (.exited pid code)) none
  | killed (pid signal : Nat) : Follows (some pid) (.record (.killed pid signal)) none

/-- Events that follow each child from its start to its end, with nothing else in between. -/
inductive Attends : Option Nat → List Event → Option Nat → Prop where
  | done (child : Option Nat) : Attends child [] child
  | next {child between left : Option Nat} {event : Event} {later : List Event}
      (h : Follows child event between) (rest : Attends between later left) :
      Attends child (event :: later) left

section
variable (pid : Nat) (s : Session)

theorem awaitEnd_doings (doings : List Doing) (later : List Activity) :
    awaitEnd pid (doings.map Doing.activity ++ later) s =
      let rest := awaitEnd pid later s
      ⟨rest.result, doings.map (Doing.shown pid) ++ rest.events, rest.session⟩ := by
  induction doings with
  | nil => rfl
  | cons doing doings ih =>
    cases doing with
    | wrote outlet bytes =>
      have hfirst := awaitEnd_wrote pid (doings.map Doing.activity ++ later) s outlet bytes
      rw [ih] at hfirst
      exact hfirst
    | stopped signal =>
      have hfirst := awaitEnd_stopped pid (doings.map Doing.activity ++ later) s signal
      rw [ih] at hfirst
      exact hfirst

theorem awaitEnd_end (ending : End) (later : List Activity) :
    awaitEnd pid (.changed ending.change.word :: later) s =
      ⟨.ok ending.outcome, [ending.shown pid], s⟩ := by
  cases ending with
  | exited code => exact awaitEnd_exited pid later s code
  | killed signal coreDumped => exact awaitEnd_killed pid later s signal coreDumped

theorem awaitEnd_life (doings : List Doing) (ending : End) (later : List Activity) :
    awaitEnd pid (lifeOf doings ending ++ later) s =
      ⟨.ok ending.outcome, shownLife pid doings ending, s⟩ := by
  rw [lifeOf, List.append_assoc, awaitEnd_doings, List.singleton_append, awaitEnd_end]
  rfl

theorem awaitEnd_unended (doings : List Doing) :
    awaitEnd pid (doings.map Doing.activity) s =
      ⟨.error (.wait .noChild), doings.map (Doing.shown pid), s⟩ := by
  have hrest := awaitEnd_doings pid s doings []
  rw [List.append_nil] at hrest
  rw [hrest]
  simp [awaitEnd, Act.fail]

end

namespace World

theorem live_keepsEnded (script : Script) (w : World) :
    (live script w).2.keepsEnded = w.keepsEnded := by
  induction script generalizing w with
  | exit | die => rfl
  | stop _ next ih | write _ _ next ih => exact ih w
  | readInput next ih => exact ih _ _
  | askDirectory next ih => exact ih _ w
  | makeDirectory path next ih => exact (ih _ _).trans (makeDirectory_keepsEnded path)
  | removeDirectory path next ih => exact (ih _ _).trans (removeDirectory_keepsEnded path)
  | rename source target next ih => exact (ih _ _).trans (rename_keepsEnded source target)

theorem reportEnd_of_kept {w : World} (h : w.keepsEnded = true) (change : Change) :
    w.reportEnd change = [.changed change.word] :=
  if_pos h

theorem live_lifeOf (script : Script) {w : World} (h : w.keepsEnded = true) :
    ∃ doings ending, (live script w).1 = lifeOf doings ending := by
  induction script generalizing w with
  | exit code => exact ⟨[], .exited code, reportEnd_of_kept h _⟩
  | die signal coreDumped => exact ⟨[], .killed signal coreDumped, reportEnd_of_kept h _⟩
  | stop signal next ih =>
    obtain ⟨doings, ending, hlife⟩ := ih h
    exact ⟨.stopped signal :: doings, ending, congrArg (_ :: ·) hlife⟩
  | write outlet bytes next ih =>
    obtain ⟨doings, ending, hlife⟩ := ih h
    exact ⟨.wrote outlet bytes :: doings, ending, congrArg (_ :: ·) hlife⟩
  | readInput next ih => exact ih w.childInput (w := { w with childInput := [] }) h
  | askDirectory next ih => exact ih _ h
  | makeDirectory path next ih => exact ih _ ((makeDirectory_keepsEnded path).trans h)
  | removeDirectory path next ih => exact ih _ ((removeDirectory_keepsEnded path).trans h)
  | rename source target next ih => exact ih _ ((rename_keepsEnded source target).trans h)

end World

def Script.doing : List Doing → End → Script
  | [], .exited code => .exit code
  | [], .killed signal coreDumped => .die signal coreDumped
  | .wrote outlet bytes :: later, ending => .write outlet bytes (doing later ending)
  | .stopped signal :: later, ending => .stop signal (doing later ending)

theorem World.live_doing (doings : List Doing) (ending : End) {w : World}
    (h : w.keepsEnded = true) :
    World.live (Script.doing doings ending) w = (lifeOf doings ending, w) := by
  induction doings with
  | nil => cases ending <;> simp [Script.doing, World.live, reportEnd_of_kept h, lifeOf, End.change]
  | cons doing doings ih =>
    cases doing <;> simp [Script.doing, World.live, ih, lifeOf, Doing.activity]

/-- Programs live all these lives, and no others. -/
theorem World.live_iff {w : World} (h : w.keepsEnded = true) (activity : List Activity) :
    (∃ script, (World.live script w).1 = activity) ↔
      ∃ doings ending, activity = lifeOf doings ending := by
  constructor
  · rintro ⟨script, rfl⟩
    exact live_lifeOf script h
  · rintro ⟨doings, ending, rfl⟩
    exact ⟨Script.doing doings ending, congrArg Prod.fst (live_doing doings ending h)⟩

section
variable {list : TokenList} {s : Session} {name : Bytes} {arguments : List Bytes} {script : Script}
  {doings : List Doing} {ending : End}

theorem launch_of_lived (htokens : list.tokens = name :: arguments)
    (hexec : s.world.exec name arguments = .ok script)
    (hlife : (World.live script { s.world with nextPid := s.world.nextPid + 1 }).1 =
      lifeOf doings ending) :
    launch list s =
      ⟨.ok ending.outcome,
        .requested (name :: arguments) :: .started (name :: arguments) s.world.vars ::
          .record (.spawned (Utf8.lossy name) s.world.nextPid) ::
            shownLife s.world.nextPid doings ending,
        { s with world :=
          (World.live script { s.world with nextPid := s.world.nextPid + 1 }).2 }⟩ := by
  have hwait (t : Session) := awaitEnd_life s.world.nextPid t doings ending []
  simp only [List.append_nil] at hwait
  rw [launch_of_started htokens hexec]
  dsimp only at hlife ⊢
  rw [hlife, hwait]

theorem launch_of_forgotten (htokens : list.tokens = name :: arguments)
    (hexec : s.world.exec name arguments = .ok script)
    (hlife : (World.live script { s.world with nextPid := s.world.nextPid + 1 }).1 =
      doings.map Doing.activity) :
    launch list s =
      ⟨.error (.wait .noChild),
        .requested (name :: arguments) :: .started (name :: arguments) s.world.vars ::
          .record (.spawned (Utf8.lossy name) s.world.nextPid) ::
            doings.map (Doing.shown s.world.nextPid),
        { s with world :=
          (World.live script { s.world with nextPid := s.world.nextPid + 1 }).2 }⟩ := by
  rw [launch_of_started htokens hexec]
  dsimp only at hlife ⊢
  rw [hlife, awaitEnd_unended]

end

namespace Event

variable {e : Event}

theorem IsApart.not_birth (h : IsApart e) : ¬ e.isBirth := by
  cases e <;> simp_all [IsApart, isBirth]

theorem IsApart.not_death (h : IsApart e) : ¬ e.isDeath := by
  cases e with
  | record record => cases record <;> simp_all [IsApart, isDeath]
  | _ => simp [isDeath]

theorem IsChange.isApart (h : IsChange e) : IsApart e := by
  cases e with
  | record record => cases record <;> simp_all [IsChange, IsApart]
  | _ => simp_all [IsChange, IsApart]

theorem IsOffer.isApart (h : IsOffer e) : IsApart e := by
  cases e <;> simp_all [IsOffer, IsApart]

theorem IsReport.isApart (h : IsReport e) : IsApart e := by
  cases e <;> simp_all [IsReport, IsApart]

theorem IsOwn.isApart (h : IsOwn e) : IsApart e := by
  cases e with
  | record record => cases record <;> simp_all [IsOwn, IsApart]
  | _ => simp_all [IsOwn, IsApart]

end Event

def living : Option Nat → Nat
  | none => 0
  | some _ => 1

section
variable {child between left : Option Nat} {event : Event} {events before after : List Event}

theorem Follows.living (h : Follows child event between) :
    births [event] + living child = deaths [event] + living between := by
  cases h with
  | apart h =>
    have hbirth := h.not_birth
    have hdeath := h.not_death
    simp [births, deaths, hbirth, hdeath]
  | _ => rfl

theorem Follows.none_of_not_child (h : Follows child event between) (hevent : ¬ event.IsOfChild) :
    child = none := by
  cases h with
  | apart | born => rfl
  | _ => exact absurd trivial hevent

namespace Attends

theorem append (h : Attends child before between) (h' : Attends between after left) :
    Attends child (before ++ after) left := by
  induction h with
  | done child => exact h'
  | next h rest ih => exact .next h (ih h')

theorem split (h : Attends child (before ++ after) left) :
    ∃ between, Attends child before between ∧ Attends between after left := by
  induction before generalizing child with
  | nil => exact ⟨child, .done child, h⟩
  | cons event before ih =>
    cases h with
    | next h rest =>
      obtain ⟨between, hbefore, hafter⟩ := ih rest
      exact ⟨between, .next h hbefore, hafter⟩

theorem of_apart (h : ∀ e ∈ events, e.IsApart) : Attends none events none := by
  induction events with
  | nil => exact .done none
  | cons event later ih =>
    obtain ⟨hevent, hlater⟩ := List.forall_mem_cons.mp h
    exact .next (.apart hevent) (ih hlater)

theorem of_doings (pid : Nat) (doings : List Doing) :
    Attends (some pid) (doings.map (Doing.shown pid)) (some pid) := by
  induction doings with
  | nil => exact .done _
  | cons doing doings ih =>
    cases doing with
    | wrote outlet bytes => exact .next (.wrote pid outlet bytes) ih
    | stopped signal => exact .next (.stopped pid signal.number) ih

theorem of_life (pid : Nat) (doings : List Doing) (ending : End) :
    Attends (some pid) (shownLife pid doings ending) none := by
  apply (of_doings pid doings).append
  cases ending with
  | exited code => exact .next (.exited pid code.toNat) (.done none)
  | killed signal coreDumped => exact .next (.killed pid signal.number) (.done none)

theorem living (h : Attends child events left) :
    births events + living child = deaths events + living left := by
  induction h with
  | done child => rfl
  | @next child between left event later h rest ih =>
    have hfirst := h.living
    unfold births deaths at hfirst ih ⊢
    rw [← List.singleton_append, List.countP_append, List.countP_append]
    omega

theorem oneAtATime (h : Attends none events none) : OneAtATime events where
  one := by
    rintro before after rfl
    obtain ⟨between, hbefore, _⟩ := h.split
    have hliving := hbefore.living
    cases between with
    | none => exact .inl hliving
    | some pid => exact .inr hliving
  alone := by
    rintro before e after rfl he
    obtain ⟨between, hbefore, hafter⟩ := h.split
    cases hafter with
    | next h rest =>
      obtain rfl := h.none_of_not_child he
      exact hbefore.living
  ended := h.living

end Attends
end

section
variable {list : TokenList} {s : Session}

theorem builtin_apart (builtin : Builtin) (list : TokenList) (s : Session) :
    ∀ e ∈ (builtin.run list s).events, e.IsApart := by
  intro e he
  rcases builtin_changes_or_offers builtin list with hchanges | hoffers
  · exact (hchanges.events s e he).isApart
  · exact (hoffers.events s e he).isApart

theorem launch_attends (h : s.world.keepsEnded = true) (list : TokenList) :
    Attends none (launch list s).events none := by
  cases htokens : list.tokens with
  | nil =>
    have hnothing : launch list s = ⟨.ok (.exited 0), [], s⟩ := by simp [launch, htokens]; rfl
    rw [hnothing]
    exact .done none
  | cons name arguments =>
    cases hexec : s.world.exec name arguments with
    | error fault =>
      rw [launch_of_refused htokens hexec]
      exact .next (.apart trivial) (.done none)
    | ok script =>
      obtain ⟨doings, ending, hlife⟩ := World.live_lifeOf script
        (w := { s.world with nextPid := s.world.nextPid + 1 }) h
      rw [launch_of_lived htokens hexec hlife]
      exact .next (.apart trivial) (.next (.born s.world.nextPid) (.next (.spawned _ _)
        (.of_life s.world.nextPid doings ending)))

theorem afterFlush_attends (h : s.world.keepsEnded = true) (name : Bytes) (list : TokenList) :
    Attends none (afterFlush name list s).events none := by
  have hlaunch := launch_attends h list
  rcases hstep : launch list s with ⟨cause | outcome, events, t⟩
  · rw [afterFlush_of_failed hstep]
    rw [hstep] at hlaunch
    exact .next (.apart trivial) hlaunch
  · rw [afterFlush_of_ended hstep]
    rw [hstep] at hlaunch
    refine .next (.apart trivial) (hlaunch.append ?_)
    split
    · exact .done none
    · exact .next (.apart trivial) (.done none)

theorem execute_attends (h : s.world.keepsEnded = true) (list : TokenList) :
    Attends none (execute list s).events none := by
  cases hname : list.command? with
  | none =>
    rw [execute_of_empty hname]
    exact .done none
  | some name =>
    cases hb : Builtin.ofName? name with
    | some builtin =>
      rw [execute_of_builtin hname hb]
      exact .next (.apart trivial) (.of_apart (builtin_apart builtin list s))
    | none =>
      rw [execute_of_external hname hb]
      cases hflush : s.out.flush.1 with
      | some fault =>
        rw [runExternal_of_unflushed hflush]
        exact .next (.apart trivial) (.done none)
      | none =>
        rw [runExternal_of_flushed hflush]
        exact .next (.apart trivial)
          (afterFlush_attends (s := { s with out := s.out.flush.2 }) h name list)

theorem execute_keepsEnded (list : TokenList) (s : Session) :
    (execute list s).session.world.keepsEnded = s.world.keepsEnded := by
  cases execute_effect list s with
  | still _ world => rw [world]
  | bound v _ _ _ _ _ world => rw [world]
  | moved target w current _ _ move _ world =>
    obtain ⟨place, _, rfl⟩ := World.moveTo_eq move
    rw [world]
  | strayed target w fault _ _ move _ world =>
    obtain ⟨place, _, rfl⟩ := World.moveTo_eq move
    rw [world]
  | ran name arguments script _ _ _ _ world => rw [world, World.live_keepsEnded]

end

/-- Where ended children are kept, the act waits for each that it starts, and they are still kept
when it is over. -/
def Waits {ε α : Type} (act : Act ε α) : Prop :=
  ∀ s, s.world.keepsEnded = true →
    Attends none (act s).events none ∧ (act s).session.world.keepsEnded = true

namespace Waits

variable {ε δ α β : Type}

theorem of_madeOf {act : Act ε α} (h : MadeOf IsApart False act) : Waits act := by
  intro s hs
  refine ⟨.of_apart (h.events s), ?_⟩
  rw [h.world_eq s]
  exact hs

theorem bind {f : Act ε α} {g : α → Act ε β} (hf : Waits f) (hg : ∀ a, Waits (g a)) :
    Waits (f >>= g) := by
  intro s hs
  obtain ⟨hfirst, hkept⟩ := hf s hs
  cases hr : (f s).result with
  | error error =>
    rw [Act.bind_error hr]
    exact ⟨hfirst, hkept⟩
  | ok a =>
    obtain ⟨hnext, hlast⟩ := hg a _ hkept
    rw [Act.bind_ok hr]
    exact ⟨hfirst.append hnext, hlast⟩

theorem attempt {act : Act ε α} (h : Waits act) : Waits (act.attempt : Act δ _) := h

end Waits

theorem execute_waits (list : TokenList) : Waits (execute list) := by
  intro s hs
  refine ⟨execute_attends hs list, ?_⟩
  rw [execute_keepsEnded]
  exact hs

section
variable (shell : Shell)

theorem executeLine_waits {ε : Type} (line : Bytes) :
    Waits (shell.executeLine line : Act ε Status) := by
  refine .bind (.attempt (execute_waits _)) fun outcome => ?_
  cases outcome with
  | ok status => exact .of_madeOf (.pure _)
  | error error =>
    have hreport := report_madeOf (ε := ε) shell (Utf8.lossy ((tokenize line).command?.getD []))
      error
    exact .of_madeOf (.bind (hreport.mono (fun _ => IsReport.isApart) id) fun _ => .pure _)

theorem run_waits (source : Source) : Waits (shell.run source) :=
  run_has shell (P := Waits) (fun hown => .of_madeOf (hown.mono (fun _ => Event.IsOwn.isApart) id))
    .bind (executeLine_waits shell) source

end

section
variable {list : TokenList} {s : Session} {name : Bytes} {arguments : List Bytes} {script : Script}

/-- What is promised of a launch that starts a program: it brings how the child ended, and not
before all that the child did and its end have been seen. For the command any end is success. -/
structure SeenThrough (list : TokenList) (name : Bytes) (s : Session) (doings : List Doing)
    (ending : End) : Prop where
  result : (launch list s).result = .ok ending.outcome
  events : (launch list s).events =
    [.requested list.tokens, .started list.tokens s.world.vars,
      .record (.spawned (Utf8.lossy name) s.world.nextPid)] ++
        shownLife s.world.nextPid doings ending
  proceeds : Builtin.ofName? name = none → s.out.flush.1 = none →
    (execute list s).result = .ok .proceed

theorem seenThrough_of_lived {doings : List Doing} {ending : End}
    (htokens : list.tokens = name :: arguments) (hexec : s.world.exec name arguments = .ok script)
    (hlife : (World.live script { s.world with nextPid := s.world.nextPid + 1 }).1 =
      lifeOf doings ending) : SeenThrough list name s doings ending := by
  have hlaunch := launch_of_lived htokens hexec hlife
  constructor
  · rw [hlaunch]
  · rw [hlaunch, htokens]
    rfl
  · intro hb hflush
    have hlaunch := launch_of_lived (s := { s with out := s.out.flush.2 }) htokens hexec hlife
    rw [execute_of_ended htokens hb hflush hlaunch]

end

/-- Where ended children are kept, a child lives some doings and an end, and any such life can be
lived. The wait sees it through: it brings how the child ended, which no stop has a part in, and
without an end it brings nothing. So in a run there is never more than one child, and none where the
shell itself does something, as when it has read a line. -/
theorem wait_ends_only_with_the_child (shell : Shell) (s : Session)
    (hs : s.world.keepsEnded = true) :
    (∀ activity, (∃ script, (World.live script s.world).1 = activity) ↔
      ∃ doings ending, activity = lifeOf doings ending) ∧
    (∀ pid doings ending later, awaitEnd pid (lifeOf doings ending ++ later) s =
      ⟨.ok ending.outcome, shownLife pid doings ending, s⟩) ∧
    (∀ pid (doings : List Doing), awaitEnd pid (doings.map Doing.activity) s =
      ⟨.error (.wait .noChild), doings.map (Doing.shown pid), s⟩) ∧
    (∀ outcome : Outcome, outcome.success = true ↔ outcome = .exited 0) ∧
    (∀ list name arguments script, list.tokens = name :: arguments →
      s.world.exec name arguments = .ok script → ∃ doings ending,
        (World.live script { s.world with nextPid := s.world.nextPid + 1 }).1 =
          lifeOf doings ending ∧ SeenThrough list name s doings ending) ∧
    ∀ source, OneAtATime (shell.run source s).events := by
  refine ⟨World.live_iff hs, ?_, ?_, ?_, ?_, ?_⟩
  · intro pid doings ending later
    exact awaitEnd_life pid s doings ending later
  · intro pid doings
    exact awaitEnd_unended pid s doings
  · intro outcome
    cases outcome <;> simp [Outcome.success]
  · intro list name arguments script htokens hexec
    obtain ⟨doings, ending, hlife⟩ := World.live_lifeOf script
      (w := { s.world with nextPid := s.world.nextPid + 1 }) hs
    exact ⟨doings, ending, hlife, seenThrough_of_lived htokens hexec hlife⟩
  · intro source
    exact (run_waits shell source s hs).1.oneAtATime

/-- A child is stopped twice before it is killed, and a program is started that fails. -/
theorem wait_outlasts_stops :
    let s : Session := ⟨Machine.world [("PATH", "/bin")], .accepting, .accepting⟩
    let list : TokenList := .ofList [Bytes.ofString "false"]
    let stops : List Doing := [.stopped ⟨19, by decide, by decide⟩, .wrote .output [33],
      .stopped ⟨20, by decide, by decide⟩]
    let ending : End := .killed ⟨11, by decide, by decide⟩ true
    let source := Source.ofBytes 8 (Bytes.ofString "false\ntrue\n")
    s.world.keepsEnded = true ∧
    (awaitEnd 7 (lifeOf stops ending) s).result = .ok (.signaled 11) ∧
    (execute list s).result = .ok .proceed ∧
    OneAtATime ((Shell.mk "$ " .plain).run source s).events := by
  intro s list stops ending source
  have hs : s.world.keepsEnded = true := rfl
  obtain ⟨_, hwait, _, _, hlaunch, hrun⟩ :=
    wait_ends_only_with_the_child (Shell.mk "$ " .plain) s hs
  refine ⟨hs, ?_, ?_, hrun source⟩
  · have hlife := hwait 7 stops ending []
    rw [List.append_nil] at hlife
    rw [hlife]
    rfl
  · obtain ⟨script, hexec⟩ : ∃ script, s.world.exec (Bytes.ofString "false") [] = .ok script :=
      exists_of_isOk (by decide +kernel)
    obtain ⟨_, _, _, hseen⟩ := hlaunch list (Bytes.ofString "false") [] script (by decide) hexec
    exact hseen.proceeds (by decide) rfl

end LineShell
