import LineShell.Proofs.LimitedOutput
import LineShell.Proofs.TokenGrammar
import LineShell.Proofs.VariableStore
import LineShell.Proofs.Waiting

/-!
# From a line to the arguments of a program

A program is asked for with the words of its line: all of them, in their order and with all their
bytes, the first as it was typed. Where the program lies shows in none of them. Only an interpreter
puts something else in front, and that is the system's doing once the program has been found. The
system takes no argument with a NUL byte in it, and looks for nothing then.
-/
namespace LineShell

/-- What has to do with a program: that it was asked for, that it was started, what it wrote. -/
def Event.isOfProgram : Event → Bool
  | requested _ | started _ _ | childWrote _ _ => true
  | _ => false

def ofPrograms (events : List Event) : List Event := events.filter Event.isOfProgram

def Activity.writes (activity : List Activity) : List Event :=
  activity.filterMap fun
    | .wrote outlet bytes => some (.childWrote outlet bytes)
    | .changed _ | .interrupted => none

namespace World

/-- The file at a path, run with an argument vector. A program gets the vector as it is; a text is
handed to its interpreter, with the path in place of the first argument. -/
inductive Runs (w : World) : Bytes → List Bytes → Script → Prop where
  | program {path : Bytes} {argv : List Bytes} {run : Program}
      (image : w.image path = .ok (.program run)) : Runs w path argv (run argv w.vars)
  | text {path data : Bytes} {argv : List Bytes} {i : Interpreter} {script : Script}
      (image : w.image path = .ok (.text data)) (line : Interpreter.ofFile? data = some i)
      (interpreted : Runs w i.path (i.path :: i.argument.toList ++ path :: argv.tail) script) :
      Runs w path argv script

variable {w : World} {path name command : Bytes} {argv arguments : List Bytes} {script : Script}

theorem load_text_ok {data : Bytes} {room levels : Nat}
    (h : w.load room levels (.text data) path argv = .ok script) :
    ∃ i image left, Interpreter.ofFile? data = some i ∧ w.image i.path = .ok image ∧
      levels = left + 1 ∧
      w.load room left image i.path (i.path :: i.argument.toList ++ path :: argv.tail) =
        .ok script := by
  unfold load at h
  split at h
  · cases h
  · next i hline =>
    dsimp only at h
    split at h
    · cases h
    · split at h
      · cases h
      · cases h
      · next image left himage => exact ⟨i, image, left, hline, himage, rfl, h⟩

theorem runs_of_load {room levels : Nat} {image : Image} (himage : w.image path = .ok image)
    (h : w.load room levels image path argv = .ok script) : w.Runs path argv script := by
  induction levels using Nat.strongRecOn generalizing image path argv with
  | ind levels ih =>
    cases image with
    | program run =>
      have hrun : run argv w.vars = script := by
        cases levels <;> exact Except.ok.inj h
      exact hrun ▸ .program himage
    | text data =>
      obtain ⟨i, image, left, hline, hnext, rfl, hload⟩ := load_text_ok h
      exact .text himage hline (ih left (Nat.lt_succ_self left) hnext hload)

theorem runs_of_execPath (h : w.execPath path argv = .ok script) : w.Runs path argv script := by
  unfold execPath at h
  cases himage : w.image path with
  | error fault =>
    rw [himage] at h
    cases h
  | ok image =>
    rw [himage] at h
    dsimp only at h
    split at h
    · exact runs_of_load himage h
    · cases h

theorem runs_of_search {denied : Bool} {last : Fault} {directories : List Bytes}
    (h : w.search argv name denied last directories = .ok script) :
    ∃ path, w.Runs path argv script := by
  induction directories generalizing denied last with
  | nil => cases h
  | cons directory rest ih =>
    unfold search at h
    dsimp only at h
    split at h
    · exact ih h
    · split at h
      · next found hfound =>
        cases h
        exact ⟨_, runs_of_execPath hfound⟩
      · split at h
        · exact ih h
        · cases h

theorem runs_of_exec (h : w.exec command arguments = .ok script) :
    ∃ path, w.Runs path (command :: arguments) script := by
  unfold exec at h
  dsimp only at h
  split at h
  · cases h
  · split at h
    · cases h
    · split at h
      · exact ⟨command, runs_of_execPath h⟩
      · exact runs_of_search h

theorem exec_of_nul (h : ∃ word ∈ command :: arguments, 0 ∈ word) :
    w.exec command arguments = .error nulInArgument := by
  obtain ⟨word, hword, hnul⟩ := h
  have hany : (command :: arguments).any Bytes.hasNul = true :=
    List.any_eq_true.mpr ⟨word, hword, hasNul_iff.mpr hnul⟩
  unfold exec
  dsimp only
  rw [if_pos hany]

end World

theorem ofPrograms_append (before after : List Event) :
    ofPrograms (before ++ after) = ofPrograms before ++ ofPrograms after :=
  List.filter_append before after

theorem ofPrograms_eq_nil {events : List Event} (h : ∀ e ∈ events, ¬ e.isOfProgram) :
    ofPrograms events = [] :=
  List.filter_eq_nil_iff.mpr h

theorem Event.IsInternal.not_ofProgram {e : Event} (h : e.IsInternal) : ¬ e.isOfProgram := by
  cases e <;> simp_all [IsInternal, isOfProgram]

theorem Event.IsReport.not_ofProgram {e : Event} (h : e.IsReport) : ¬ e.isOfProgram := by
  cases e <;> simp_all [IsReport, isOfProgram]

section
variable (pid : Nat) (s : Session)

theorem ofPrograms_wrote (outlet : Outlet) (bytes : Bytes) (later : List Activity) :
    ofPrograms (awaitEnd pid (.wrote outlet bytes :: later) s).events =
      .childWrote outlet bytes :: ofPrograms (awaitEnd pid later s).events := by
  rw [awaitEnd_wrote]
  rfl

theorem ofPrograms_stopped (signal : Signal) (later : List Activity) :
    ofPrograms (awaitEnd pid (.changed (Change.stopped signal).word :: later) s).events =
      ofPrograms (awaitEnd pid later s).events := by
  rw [awaitEnd_stopped]
  rfl

theorem ofPrograms_end (w : World) (change : Change) :
    ofPrograms (awaitEnd pid (w.reportEnd change) s).events =
      Activity.writes (w.reportEnd change) := by
  unfold World.reportEnd
  split
  · unfold awaitEnd
    split
    · rfl
    · split
      · rfl
      · split <;> rfl
  · rfl

theorem ofPrograms_awaitEnd (script : Script) (w : World) :
    ofPrograms (awaitEnd pid (World.live script w).1 s).events =
      Activity.writes (World.live script w).1 := by
  induction script generalizing w with
  | exit code => exact ofPrograms_end pid s w (.exited code)
  | die signal coreDumped => exact ofPrograms_end pid s w (.killed signal coreDumped)
  | stop signal next ih => exact (ofPrograms_stopped pid s signal _).trans (ih w)
  | write outlet bytes next ih =>
    exact (ofPrograms_wrote pid s outlet bytes _).trans (congrArg _ (ih w))
  | readInput next ih => exact ih _ _
  | askDirectory next ih => exact ih _ w
  | makeDirectory path next ih => exact ih _ _
  | removeDirectory path next ih => exact ih _ _
  | rename source target next ih => exact ih _ _

end

/-- What is to be seen of the program that an argument vector asks for. -/
def World.seen (w : World) (argv : List Bytes) : Except Fault Script → List Event
  | .error _ => [.requested argv]
  | .ok script =>
    .requested argv :: .started argv w.vars ::
      Activity.writes (World.live script { w with nextPid := w.nextPid + 1 }).1

def World.left (w : World) : Except Fault Script → World
  | .error _ => w
  | .ok script => (World.live script { w with nextPid := w.nextPid + 1 }).2

section
variable {list : TokenList} {s : Session} {name : Bytes} {arguments : List Bytes}

theorem launch_seen (h : list.tokens = name :: arguments) :
    let exec := s.world.exec name arguments
    ofPrograms (launch list s).events = s.world.seen (name :: arguments) exec ∧
      (launch list s).session.world = s.world.left exec := by
  intro exec
  cases hexec : exec with
  | error fault =>
    rw [launch_of_refused h hexec]
    exact ⟨rfl, rfl⟩
  | ok script =>
    rw [launch_of_started h hexec]
    refine ⟨?_, rfl⟩
    exact congrArg (_ :: _ :: ·) (ofPrograms_awaitEnd _ _ script _)

theorem execute_seen (htokens : list.tokens = name :: arguments)
    (hb : Builtin.ofName? name = none) (hflush : s.out.flush.1 = none) :
    let exec := s.world.exec name arguments
    ofPrograms (execute list s).events = s.world.seen (name :: arguments) exec ∧
      (execute list s).session.world = s.world.left exec := by
  intro exec
  have hname := TokenList.command?_eq_some_iff.mpr ⟨arguments, htokens⟩
  obtain ⟨hsession, later, hlater, hevents⟩ :=
    afterFlush_step name list { s with out := s.out.flush.2 }
  obtain ⟨hseen, hleft⟩ := launch_seen (s := { s with out := s.out.flush.2 }) htokens
  rw [execute_of_external hname hb, runExternal_of_flushed hflush]
  constructor
  · dsimp only
    rw [hevents]
    change ofPrograms ((launch list { s with out := s.out.flush.2 }).events ++ later) = _
    rw [ofPrograms_append, ofPrograms_eq_nil fun e he => (hlater e he).not_ofProgram,
      List.append_nil]
    exact hseen
  · dsimp only
    rw [hsession]
    exact hleft

theorem execute_of_unstarted {fault : Fault} (htokens : list.tokens = name :: arguments)
    (hb : Builtin.ofName? name = none) (hflush : s.out.flush.1 = none)
    (hexec : s.world.exec name arguments = .error fault) :
    (execute list s).result = .error (.process (.ofSpawn (Utf8.lossy name) fault)) := by
  have hlaunch := launch_of_refused (s := { s with out := s.out.flush.2 }) htokens hexec
  rw [execute_of_failed htokens hb hflush hlaunch]

end

/-- A line that starts a program asks for it with its words, and with nothing else. If it is
started, it runs with these words wherever it was found; all that is seen of it is what it does with
them. -/
theorem programs_get_the_words_of_the_line {ε : Type} (shell : Shell) {line command : Bytes}
    {arguments : List Bytes} {s : Session} (hline : Reads line (command :: arguments))
    (hb : Builtin.ofName? command = none) (hflush : s.out.flush.1 = none) :
    let argv := command :: arguments
    let exec := s.world.exec command arguments
    let step : Step ε Status := shell.executeLine line s
    ofPrograms step.events = s.world.seen argv exec ∧
    step.session.world = s.world.left exec ∧
    (∀ script, exec = .ok script → ∃ path, s.world.Runs path argv script) ∧
    ((∃ word ∈ argv, 0 ∈ word) →
      ofPrograms step.events = [.requested argv] ∧
      (execute (tokenize line) s).result =
        .error (.process (.spawn (Utf8.lossy command) World.nulInArgument)) ∧
      step.session.world = s.world) := by
  intro argv exec step
  have htokens : (tokenize line).tokens = argv := (reads_iff_tokens.mp hline).symm
  obtain ⟨told, htold, hevents⟩ := executeLine_events (ε := ε) shell line s
  obtain ⟨hseen, hleft⟩ := execute_seen htokens hb hflush
  have hprograms : ofPrograms step.events = s.world.seen argv exec := by
    change ofPrograms (shell.executeLine line s : Step ε Status).events = _
    rw [hevents, ofPrograms_append, ofPrograms_eq_nil fun e he => (htold e he).not_ofProgram,
      List.append_nil]
    exact hseen
  have hworld : step.session.world = s.world.left exec :=
    (executeLine_world shell line s).trans hleft
  refine ⟨hprograms, hworld, ?_, ?_⟩
  · intro script hexec
    exact World.runs_of_exec hexec
  · intro hnul
    have hexec : exec = .error World.nulInArgument := World.exec_of_nul hnul
    rw [hexec] at hprograms hworld
    exact ⟨hprograms, execute_of_unstarted htokens hb hflush hexec, hworld⟩

/-- A name that is looked for, quotes, a dollar sign, a star, an equals sign, bytes that are no text
and control bytes that part nothing; and a program that is nowhere, with a NUL byte behind it. -/
theorem programs_get_words_of_any_bytes :
    let s : Session := ⟨Machine.world [("PATH", "/tmp:/bin")], .accepting, .accepting⟩
    let shell := Shell.mk "$ " .plain
    let argv := ["args", "'a", "b'", "$PATH=*"].map Bytes.ofString ++ [[255, 128, 11, 27]]
    let line := Bytes.ofString "args 'a b'\t$PATH=* " ++ [7, 255, 128, 11, 27, 13, 10]
    let step : Step ShellError Status := shell.executeLine line s
    let nowhere : Step ShellError Status := shell.executeLine (Bytes.ofString "x y\x00") s
    Reads line argv ∧
    ofPrograms step.events =
      .requested argv :: .started argv s.world.vars ::
        ["argc=5\n", "[0]=args\n", "[1]='a\n", "[2]=b'\n", "[3]=$PATH=*\n"].map
          (fun text => .childWrote .output (Bytes.ofString text)) ++
        [.childWrote .output (Bytes.ofString "[4]=" ++ [255, 128, 11, 27, 10])] ∧
    ofPrograms nowhere.events = [.requested [[120], [121, 0]]] ∧
    nowhere.session.world = s.world := by
  intro s shell argv line step nowhere
  have hline : Reads line argv := reads_iff_tokens.mpr (by decide +kernel)
  have hnul : Reads (Bytes.ofString "x y\x00") [[120], [121, 0]] :=
    reads_iff_tokens.mpr (by decide +kernel)
  obtain ⟨hseen, _⟩ := programs_get_the_words_of_the_line (ε := ShellError) (s := s) shell hline
    (by decide) rfl
  obtain ⟨_, _, _, hrefused⟩ := programs_get_the_words_of_the_line (ε := ShellError) (s := s) shell
    hnul (by decide) rfl
  obtain ⟨hnone, _, hworld⟩ := hrefused ⟨[121, 0], by decide, by decide⟩
  refine ⟨hline, ?_, hnone, hworld⟩
  rw [hseen]
  decide +kernel

end LineShell
