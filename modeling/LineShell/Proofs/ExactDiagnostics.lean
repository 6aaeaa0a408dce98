import LineShell.Proofs.Refusals

/-!
# Exact diagnostics

While its output and its diagnostics get through, a shell tells one message for each line whose
command is refused, and for other lines none. The message names the command as far as it is text,
and gives the reason; all messages of a run are drawn alike.
-/
namespace LineShell

open Event (IsComplaint)
open Bytes (newline)

def diagnosed (events : List Event) : Bytes :=
  events.flatMap fun
    | .complained piece reply => reply.accepted piece
    | _ => []

/-- Commands that are never refused, whatever else comes of them: a blank line, `get`, `set` without
a name, and a program that is started and waited for. -/
inductive Silent (list : TokenList) (w : World) : Prop where
  | blank (tokens : list.tokens = [])
  | get (command : list.command? = some (Bytes.ofString "get"))
  | setNothing (command : list.command? = some (Bytes.ofString "set"))
      (argument : list.get? 1 = none)
  | ended {name : Bytes} {arguments : List Bytes} {script : Script}
      (tokens : list.tokens = name :: arguments) (external : Builtin.ofName? name = none)
      (exec : w.exec name arguments = .ok script) (kept : w.keepsEnded = true)

/-- A line and the world that it finds. -/
structure Scene where
  line : Bytes
  world : World

namespace Shell

variable (shell : Shell)

def message (line : Bytes) (error : CommandError) : Bytes :=
  let command := Utf8.lossy ((tokenize line).command?.getD [])
  Bytes.ofString (shell.highlighter.apply (command ++ ": " ++ error.message)) ++ [newline]

/-- Lines executed one after another, each with the world that the one before left. -/
def scenes : List Bytes → Session → List Scene
  | [], _ => []
  | line :: later, s =>
    ⟨line, s.world⟩ :: scenes later (shell.executeLine line s : Step ShellError Status).session

/-- There is a message exactly if the command is refused in the world that it finds. -/
structure Tells (scene : Scene) (told : Bytes) : Prop where
  refused : ∀ error, Refused (tokenize scene.line) scene.world error →
    told = shell.message scene.line error
  silent : (∀ error, ¬ Refused (tokenize scene.line) scene.world error) → told = []

end Shell

theorem diagnosed_append (before after : List Event) :
    diagnosed (before ++ after) = diagnosed before ++ diagnosed after :=
  List.flatMap_append

theorem diagnosed_eq_nil {events : List Event} (h : ∀ e ∈ events, ¬ IsComplaint e) :
    diagnosed events = [] := by
  rw [diagnosed, List.flatMap_eq_nil_iff]
  intro e he
  cases e with
  | complained piece reply => exact absurd trivial (h _ he)
  | _ => rfl

theorem Silent.not_refused {list : TokenList} {w : World} {error : CommandError}
    (h : Silent list w) : ¬ Refused list w error := by
  cases h with
  | blank tokens =>
    refine not_refused_of_empty ?_
    rw [TokenList.command?, TokenList.get?, tokens]
    rfl
  | get command =>
    rw [refused_iff command]
    exact id
  | setNothing command argument =>
    rw [refused_iff command]
    rintro ⟨cause, hfails, _⟩
    cases hfails with
    | badName given => cases argument.symm.trans given
    | badValue given => cases argument.symm.trans given
  | ended tokens external exec kept =>
    rw [refused_iff (TokenList.command?_eq_some_iff.mpr ⟨_, tokens⟩), external]
    rintro ⟨arguments, cause, tokens', hfails, _⟩
    cases tokens.symm.trans tokens'
    cases hfails with
    | unstarted refused => cases exec.symm.trans refused
    | unawaited _ forgotten => cases kept.symm.trans forgotten

section
variable {s : Session}

theorem complain_of_takesAll (h : s.err.TakesAll) {piece : Bytes} (hne : piece ≠ []) :
    Act.complain piece s =
      ⟨.ok (), [.complained piece .whole], { s with err := (s.err.write piece).2 }⟩ := by
  rw [Act.complain_step]
  simp [hne, h.write_whole piece, WriteReply.fault?]

theorem tell_of_takesAll (h : s.err.TakesAll) {text : Bytes} (hne : text ≠ []) :
    (tell text s).events = [.complained text .whole, .complained [newline] .whole] := by
  have htext := complain_of_takesAll h hne
  have hnewline := complain_of_takesAll (s := { s with err := (s.err.write text).2 })
    (h.write text) (List.cons_ne_nil newline [])
  unfold tell
  rw [Act.bind_ok (congrArg Step.result htext), htext, hnewline]
  rfl

theorem diagnosed_report (h : s.err.TakesAll) {ε : Type} (shell : Shell) (command : String)
    (error : CommandError) :
    diagnosed (shell.report command error s : Step ε Unit).events =
      Bytes.ofString (shell.highlighter.apply (command ++ ": " ++ error.message)) ++ [newline] := by
  have hne := diagnostic_ne_nil shell.highlighter command error.message
  rw [report_events, tell_of_takesAll (s := { s with out := s.out.flush.2 }) h hne]
  rfl

theorem execute_keeps_err (h : s.err.TakesAll) (list : TokenList) :
    (execute list s).session.err.TakesAll :=
  (execute_madeOf list).keeps_err (P := Channel.TakesAll) (fun _ piece hc => hc.write piece) h

theorem executeLine_keeps_err (h : s.err.TakesAll) {ε : Type} (shell : Shell) (line : Bytes) :
    (shell.executeLine line s : Step ε Status).session.err.TakesAll :=
  (executeLine_madeOf shell line).keeps_err (P := Channel.TakesAll)
    (fun _ piece hc => hc.write piece) h

theorem diagnosed_execute (list : TokenList) (s : Session) :
    diagnosed (execute list s).events = [] :=
  diagnosed_eq_nil fun e he => ((execute_madeOf list).events s e he).not_complaint

theorem executeLine_tells (shell : Shell) (ho : s.out.TakesAll) (he : s.err.TakesAll)
    (line : Bytes) :
    shell.Tells ⟨line, s.world⟩
      (diagnosed (shell.executeLine line s : Step ShellError Status).events) := by
  cases hresult : (execute (tokenize line) s).result with
  | ok status =>
    rw [executeLine_of_ok shell hresult]
    dsimp only
    rw [diagnosed_execute]
    constructor
    · intro error hrefused
      cases hresult.symm.trans ((execute_error_iff ho).mpr hrefused)
    · intro _
      rfl
  | error error =>
    rw [executeLine_of_error shell hresult]
    dsimp only
    rw [diagnosed_append, diagnosed_execute, diagnosed_report (execute_keeps_err he _)]
    constructor
    · intro error' hrefused
      cases hresult.symm.trans ((execute_error_iff ho).mpr hrefused)
      rfl
    · intro hsilent
      exact absurd ((execute_error_iff ho).mp hresult) (hsilent error)

theorem turns_tell (shell : Shell) (ho : s.out.TakesAll) (he : s.err.TakesAll)
    (lines : List Bytes) :
    List.Forall₂ shell.Tells (shell.scenes lines s)
      ((shell.turns lines s).map fun turn => diagnosed turn.step.events) := by
  induction lines generalizing s with
  | nil => exact .nil
  | cons line later ih =>
    refine .cons (executeLine_tells shell ho he line) (ih ?_ ?_)
    · exact executeLine_keeps_takesAll ho shell line
    · exact executeLine_keeps_err he shell line

end

namespace Shell

variable {shell : Shell} {s t : Session}

theorem scenes_congr (h : BothOpen s t) (lines : List Bytes) :
    shell.scenes lines s = shell.scenes lines t := by
  induction lines generalizing s t with
  | nil => rfl
  | cons line later ih =>
    have hline := executeLine_agree (ε := ShellError) bothOpen_indistinct (bothOpen_report shell)
      line s t h
    rw [scenes, scenes, h.world, ih hline.session]

theorem InTurn.diagnosed {lines : List Bytes} {closing : List Event} {run : Step ShellError Nat}
    (h : shell.InTurn lines s closing run) (hclosing : ∀ e ∈ closing, ¬ IsComplaint e) :
    LineShell.diagnosed run.events =
      ((shell.turns lines s).map fun turn => LineShell.diagnosed turn.step.events).flatten := by
  have hturn (turn : Turn) :
      LineShell.diagnosed (shell.seenOf turn) = LineShell.diagnosed turn.step.events := by
    rw [seenOf, diagnosed_append, diagnosed_eq_nil prompting_not_complaint]
    rfl
  calc LineShell.diagnosed run.events
      = (shell.turns lines s).flatMap (fun turn => LineShell.diagnosed (shell.seenOf turn)) ++
          LineShell.diagnosed closing := h.flatMap _
    _ = (shell.turns lines s).flatMap fun turn => LineShell.diagnosed turn.step.events := by
      rw [diagnosed_eq_nil hclosing, List.append_nil]
      exact List.flatMap_congr fun turn _ => hturn turn
    _ = ((shell.turns lines s).map fun turn => LineShell.diagnosed turn.step.events).flatten := by
      rw [List.flatten_eq_flatMap, List.flatMap_map]
      rfl

end Shell

/-- On streams that take everything, the diagnostics of a run are one message for each line whose
command is refused, in the order of the lines. Blank lines, `get`, `set` without a name and programs
that come to any end are never refused. A message is drawn as it was settled when the terminal was
looked at: plainly, or between two texts that are always the same. -/
theorem diagnostics_are_exact (shell : Shell) (source : Source) (s : Session)
    (ho : s.out.TakesAll) (he : s.err.TakesAll) :
    let run := shell.run source s
    (∃ told, diagnosed run.events = told.flatten ∧
      List.Forall₂ shell.Tells (shell.scenes (executed run.events) s) told) ∧
    (∀ list w error, Silent list w → ¬ Refused list w error) ∧
    (∀ text, Highlighter.plain.apply text = text) ∧
    ∀ terminal made text, (Highlighter.ofTerminal terminal made).apply text =
      if terminal && showsColour made then "\x1b[31m\x1b[1m" ++ text ++ "\x1b[0m" else text := by
  intro run
  refine ⟨?_, fun list w error h => h.not_refused, fun _ => rfl, ?_⟩
  · obtain ⟨closing, hclosing, hturns⟩ : ∃ closing, (∀ e ∈ closing, ¬ IsComplaint e) ∧
        shell.InTurn (executed run.events) s.opened closing run := Shell.run_turns ho source
    have hopen : BothOpen s s.opened := ⟨rfl, rfl, ho, Channel.accepting_takesAll⟩
    refine ⟨_, hturns.diagnosed hclosing, ?_⟩
    rw [Shell.scenes_congr hopen]
    exact turns_tell shell hopen.right (hopen.err ▸ he) _
  · intro terminal made text
    unfold Highlighter.ofTerminal
    split <;> rfl

/-- Colour is switched off by name after the first two messages, to no effect, and the last message
is about a command that is not text. -/
theorem diagnostics_are_exact_in_colour :
    let s : Session := ⟨Machine.world [("TERM", "xterm")], .accepting, .accepting⟩
    let shell := Shell.mk "$ " (.ofTerminal true s.world.vars)
    let source : Source :=
      [.bytes 99 (Bytes.ofString "d nowhere\nget X\n\nset A=B\nset NO_COLOR\n"), .interrupted,
        .bytes 102 (Bytes.ofString "alse\n"), .bytes 255 (Bytes.ofString " a\nexit\n")]
    let run := shell.run source s
    s.out.TakesAll ∧ s.err.TakesAll ∧
    (∃ told, diagnosed run.events = told.flatten ∧
      List.Forall₂ shell.Tells (shell.scenes (executed run.events) s) told) ∧
    diagnosed run.events =
      ["cd: nowhere: No such file or directory (os error 2)", "set: invalid variable name: \"A=B\"",
        "\uFFFD: command not found"].flatMap
        fun text => Bytes.ofString ("\x1b[31m\x1b[1m" ++ text ++ "\x1b[0m\n") := by
  intro s shell source run
  have ho : s.out.TakesAll := Channel.accepting_takesAll
  have he : s.err.TakesAll := Channel.accepting_takesAll
  have hrun : run = shell.follow none (Bytes.lines source.contents) s :=
    Shell.run_follows_lines (by simp [Source.NeverFails, source]) rfl
  refine ⟨ho, he, (diagnostics_are_exact shell source s ho he).1, ?_⟩
  rw [hrun]
  decide +kernel

end LineShell
