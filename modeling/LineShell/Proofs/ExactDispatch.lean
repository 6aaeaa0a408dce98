import LineShell.Proofs.CommandEffects

/-!
# Dispatch by the first token

The first token decides alone, byte for byte, and in one of three ways: there is none and nothing is
done, it names a built-in and this one runs on all tokens, or it names none and the tokens are
launched once, as they are. No way passes into another, whatever comes of it.
-/
namespace LineShell

/-- The argument vectors that the system was asked to look up and start, in order. -/
def requests (events : List Event) : List (List Bytes) :=
  events.filterMap fun
    | .requested argv => some argv
    | _ => none

def builtinsRun (events : List Event) : List String :=
  events.filterMap fun
    | .record (.builtin name) => some name
    | _ => none

namespace Event

def NamesBuiltin : Event → Prop
  | record (.builtin _) => True
  | _ => False

variable {e : Event}

theorem IsChange.not_builtin (h : IsChange e) : ¬ NamesBuiltin e := by
  cases e with
  | record record => cases record <;> simp_all [IsChange, NamesBuiltin]
  | _ => simp [NamesBuiltin]

theorem IsOffer.not_builtin (h : IsOffer e) : ¬ NamesBuiltin e := by
  cases e <;> simp_all [IsOffer, NamesBuiltin]

theorem IsOfChild.not_builtin (h : IsOfChild e) : ¬ NamesBuiltin e := by
  cases e with
  | record record => cases record <;> simp_all [IsOfChild, NamesBuiltin]
  | _ => simp [NamesBuiltin]

end Event

open Event (IsStart NamesBuiltin)

def IsForeign (name : Bytes) : Prop := ∀ builtin : Builtin, name ≠ Bytes.ofString builtin.name

def noted (name : Bytes) : Except ProcessError Outcome → List Event
  | .ok outcome => if outcome.success then [] else [.record (.finished (Utf8.lossy name) outcome)]
  | .error _ => []

/-- What an external command makes of its launch. -/
def madeOfLaunch (name : Bytes) (launched : Step ProcessError Outcome) :
    Step CommandError Status where
  result :=
    match launched.result with
    | .ok _ => .ok .proceed
    | .error error => .error (.process error)
  events := .flushed none :: .record (.external (Utf8.lossy name)) ::
    (launched.events ++ noted name launched.result)
  session := launched.session

/-- What is promised of a command, for each kind of first token. -/
structure Dispatched (list : TokenList) (s : Session) (step : Step CommandError Status) : Prop where
  empty : list.tokens = [] → step = ⟨.ok .proceed, [], s⟩
  builtin : ∀ builtin : Builtin, list.command? = some (Bytes.ofString builtin.name) →
    let ran := builtin.run list s
    step = ⟨ran.result, .record (.builtin builtin.name) :: ran.events, ran.session⟩ ∧
      builtinsRun step.events = [builtin.name] ∧ ∀ e ∈ step.events, ¬ IsStart e
  unflushed : ∀ name fault, list.command? = some name → IsForeign name →
    s.out.flush.1 = some fault →
      step = ⟨.error (.io fault), [.flushed (some fault)], { s with out := s.out.flush.2 }⟩
  launched : ∀ name, list.command? = some name → IsForeign name → s.out.flush.1 = none →
    step = madeOfLaunch name (launch list { s with out := s.out.flush.2 }) ∧
      builtinsRun step.events = [] ∧ requests step.events = [list.tokens]

namespace Builtin

theorem ofName?_eq_none_iff {name : Bytes} : ofName? name = none ↔ IsForeign name := by
  rw [Option.eq_none_iff_forall_ne_some]
  exact forall_congr' fun builtin => not_congr ofName?_eq_some_iff

theorem ofName?_of_order {order : List Builtin} (h : ∀ builtin, builtin ∈ order) (name : Bytes) :
    order.find? (fun builtin => Bytes.ofString builtin.name = name) = ofName? name := by
  ext builtin
  rw [find?_name_eq_some_iff h, ofName?_eq_some_iff]

theorem lossy_name (builtin : Builtin) :
    Utf8.lossy (Bytes.ofString builtin.name) = builtin.name := by
  cases builtin <;> decide

end Builtin

section
variable {events before after : List Event}

theorem requests_append : requests (before ++ after) = requests before ++ requests after :=
  List.filterMap_append

theorem builtinsRun_append :
    builtinsRun (before ++ after) = builtinsRun before ++ builtinsRun after :=
  List.filterMap_append

theorem requests_eq_nil (h : ∀ e ∈ events, ¬ IsStart e) : requests events = [] := by
  rw [requests, List.filterMap_eq_nil_iff]
  intro e he
  cases e with
  | requested argv => exact absurd trivial (h _ he)
  | _ => rfl

theorem builtinsRun_eq_nil (h : ∀ e ∈ events, ¬ NamesBuiltin e) : builtinsRun events = [] := by
  rw [builtinsRun, List.filterMap_eq_nil_iff]
  intro e he
  cases e with
  | record record =>
    cases record with
    | builtin name => exact absurd trivial (h _ he)
    | _ => rfl
  | _ => rfl

theorem builtinsRun_run (builtin : Builtin) (list : TokenList) (s : Session) :
    builtinsRun (builtin.run list s).events = [] := by
  apply builtinsRun_eq_nil
  intro e he
  rcases builtin_changes_or_offers builtin list with hchanges | hoffers
  · exact (hchanges.events s e he).not_builtin
  · exact (hoffers.events s e he).not_builtin

end

section
variable {list : TokenList} {s : Session} {name : Bytes}

theorem requests_launch (hname : list.command? = some name) :
    requests (launch list s).events = [list.tokens] ∧ builtinsRun (launch list s).events = [] := by
  obtain ⟨arguments, htokens⟩ := TokenList.command?_eq_some_iff.mp hname
  cases hexec : s.world.exec name arguments with
  | error fault =>
    rw [launch_of_refused htokens hexec, htokens]
    exact ⟨rfl, rfl⟩
  | ok script =>
    let lived := World.live script { s.world with nextPid := s.world.nextPid + 1 }
    let waited := awaitEnd s.world.nextPid lived.1 { s with world := lived.2 }
    have hwaited : ∀ e ∈ waited.events, e.IsOfChild := (awaitEnd_madeOf _ lived.1).events _
    have hrequests : requests waited.events = [] :=
      requests_eq_nil fun e he => (hwaited e he).isLife.not_start
    have hbuiltins : builtinsRun waited.events = [] :=
      builtinsRun_eq_nil fun e he => (hwaited e he).not_builtin
    rw [launch_of_started htokens hexec, htokens]
    exact ⟨congrArg (_ :: ·) hrequests, hbuiltins⟩

theorem runExternal_of_launch (h : s.out.flush.1 = none) (name : Bytes) (list : TokenList) :
    runExternal name list s = madeOfLaunch name (launch list { s with out := s.out.flush.2 }) := by
  rw [runExternal_of_flushed h]
  rcases hlaunch : launch list { s with out := s.out.flush.2 } with ⟨error | outcome, events, t⟩
  · rw [afterFlush_of_failed hlaunch]
    simp [madeOfLaunch, noted]
  · rw [afterFlush_of_ended hlaunch]
    rfl

theorem noted_starts_nothing (name : Bytes) (result : Except ProcessError Outcome) :
    requests (noted name result) = [] ∧ builtinsRun (noted name result) = [] := by
  cases result with
  | error error => exact ⟨rfl, rfl⟩
  | ok outcome =>
    by_cases h : outcome.success <;> simp [noted, h, requests, builtinsRun]

theorem execute_dispatched (list : TokenList) (s : Session) :
    Dispatched list s (execute list s) := by
  constructor
  · intro htokens
    apply execute_of_empty
    simp [TokenList.command?, TokenList.get?, htokens]
  · intro builtin hname
    have hb : Builtin.ofName? (Bytes.ofString builtin.name) = some builtin :=
      Builtin.ofName?_eq_some_iff.mpr rfl
    have hrun := execute_of_builtin hname hb (s := s)
    rw [Builtin.lossy_name] at hrun
    refine ⟨hrun, ?_, ?_⟩
    · rw [hrun]
      exact congrArg (_ :: ·) (builtinsRun_run builtin list s)
    · rw [hrun]
      intro e he
      rcases List.mem_cons.mp he with rfl | he
      · exact id
      · exact (builtin_starts_nothing builtin list).events s e he
  · intro name fault hname hforeign hflush
    rw [execute_of_external hname (Builtin.ofName?_eq_none_iff.mpr hforeign)]
    exact runExternal_of_unflushed hflush name list
  · intro name hname hforeign hflush
    have hrun := execute_of_external hname (Builtin.ofName?_eq_none_iff.mpr hforeign) (s := s)
    rw [runExternal_of_launch hflush] at hrun
    obtain ⟨hrequests, hbuiltins⟩ := requests_launch (s := { s with out := s.out.flush.2 }) hname
    obtain ⟨hnone, hnothing⟩ :=
      noted_starts_nothing name (launch list { s with out := s.out.flush.2 }).result
    refine ⟨hrun, ?_, ?_⟩
    · rw [hrun]
      change builtinsRun (_ ++ _) = []
      rw [builtinsRun_append, hbuiltins, hnothing]
      rfl
    · rw [hrun]
      change requests (_ ++ _) = [list.tokens]
      rw [requests_append, hrequests, hnone]
      rfl

end

/-- The first token decides which of three things comes of a command, in whatever order the names of
built-ins are looked at. The lines whose first token is `exit` end the loop, with code 1. -/
theorem dispatch_is_exact (shell : Shell) (s : Session) :
    (∀ order : List Builtin, (∀ builtin, builtin ∈ order) → ∀ name,
      order.find? (fun builtin => Bytes.ofString builtin.name = name) = Builtin.ofName? name) ∧
    (∀ name builtin, Builtin.ofName? name = some builtin ↔ name = Bytes.ofString builtin.name) ∧
    (∀ list, Dispatched list s (execute list s)) ∧
    ∀ line code, (shell.executeLine line s : Step ShellError Status).result = .ok (.exit code) ↔
      (tokenize line).command? = some (Bytes.ofString "exit") ∧ code = 1 := by
  refine ⟨?_, ?_, ?_, ?_⟩
  · intro order horder name
    exact Builtin.ofName?_of_order horder name
  · intro name builtin
    exact Builtin.ofName?_eq_some_iff
  · intro list
    exact execute_dispatched list s
  · intro line code
    rw [executeLine_result, asksToExit]
    by_cases h : (tokenize line).command? = some (Bytes.ofString "exit") <;>
      simp [h, eq_comm]

/-- A program is called like a built-in, and two commands come close to being called so. -/
theorem dispatch_is_exact_beside_programs :
    let tree := Machine.tree.put (Machine.path ["bin", "pwd"]) (.program fun _ _ => .exit 7)
    let s : Session := ⟨{ Machine.world [("PATH", "/bin")] with tree }, .accepting, .accepting⟩
    let words (texts : List String) : TokenList := .ofList (texts.map Bytes.ofString)
    let step (line : String) : Step ShellError Status :=
      (Shell.mk "$ " .plain).executeLine (Bytes.ofString line) s
    execute (words []) s = ⟨.ok .proceed, [], s⟩ ∧
    builtinsRun (execute (words ["pwd", "x"]) s).events = ["pwd"] ∧
    (∀ e ∈ (execute (words ["pwd", "x"]) s).events, ¬ IsStart e) ∧
    requests (execute (words ["pwD", "x"]) s).events = [["pwD", "x"].map Bytes.ofString] ∧
    requests (execute (words ["bin/cd"]) s).events = [["bin/cd"].map Bytes.ofString] ∧
    (step "exit 3\n").result = .ok (.exit 1) := by
  intro tree s words step
  obtain ⟨_, _, hdispatch, hexit⟩ := dispatch_is_exact (Shell.mk "$ " .plain) s
  have hforeign (name : Bytes) (h : Builtin.ofName? name = none) : IsForeign name :=
    Builtin.ofName?_eq_none_iff.mp h
  obtain ⟨_, hran, hstarts⟩ := (hdispatch (words ["pwd", "x"])).builtin .pwd (by decide)
  refine ⟨(hdispatch (words [])).empty (by decide), hran, hstarts, ?_, ?_, ?_⟩
  · exact ((hdispatch (words ["pwD", "x"])).launched (Bytes.ofString "pwD") (by decide)
      (hforeign _ (by decide)) rfl).2.2
  · exact ((hdispatch (words ["bin/cd"])).launched (Bytes.ofString "bin/cd") (by decide)
      (hforeign _ (by decide)) rfl).2.2
  · exact (hexit (Bytes.ofString "exit 3\n") 1).mpr ⟨by decide, rfl⟩

end LineShell
