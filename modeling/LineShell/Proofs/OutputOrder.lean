import LineShell.Proofs.CommandLoop

/-!
# Order of output

An output channel that holds bytes back may show them after what happened later. A run never lets
it: whatever else happens, happens with nothing pending since the last flush. So there is nothing
that the channel could hold at such a moment, and what is shown is the same as if it never held any.
-/
namespace LineShell

open Event (IsOffer IsOutput)
open Bytes (newline)

def atOnce : Release := fun _ holding => holding.length

/-- What the channel still holds after some events. -/
def stillHeld (release : Release) (moment : Nat) (held : Bytes) : List Event → Bytes
  | [] => held
  | event :: later =>
    let holding := held ++ event.accepted
    let freed := if event.releases then holding.length else release moment holding
    stillHeld release (moment + 1) (holding.drop freed) later

/-- What is left for the end is what arrives last. -/
theorem arrivals_last (draw : Record → Bytes) (release : Release) (moment : Nat) (held : Bytes)
    (events : List Event) :
    (arrivals draw release moment held events).getLast? =
      some (.output, stillHeld release moment held events) := by
  induction events generalizing moment held with
  | nil => rfl
  | cons event later ih =>
    rw [arrivals, List.getLast?_append_of_ne_nil _ (List.cons_ne_nil _ _), List.getLast?_cons, ih]
    rfl

def inOrder (draw : Record → Bytes) (events : List Event) : Bytes :=
  events.flatMap fun event => (event.direct draw).flatMap (·.2) ++ event.accepted

theorem inOrder_cons (draw : Record → Bytes) (event : Event) (later : List Event) :
    inOrder draw (event :: later) =
      (event.direct draw).flatMap (·.2) ++ (event.accepted ++ inOrder draw later) := by
  simp [inOrder]

theorem shown_cons (draw : Record → Bytes) (release : Release) (moment : Nat) (held : Bytes)
    (event : Event) (later : List Event) :
    let holding := held ++ event.accepted
    let freed := if event.releases then holding.length else release moment holding
    shownTogether (arrivals draw release moment held (event :: later)) =
      (event.direct draw).flatMap (·.2) ++ (holding.take freed ++
        shownTogether (arrivals draw release (moment + 1) (holding.drop freed) later)) := by
  simp [shownTogether, arrivals]

/-- Events that leave nothing pending unless they are output themselves. The bytes on both sides are
those taken since the last flush. -/
inductive FlushesFirst : Bytes → List Event → Bytes → Prop where
  | done (pending : Bytes) : FlushesFirst pending [] pending
  | wrote {pending left piece : Bytes} {reply : WriteReply} {later : List Event}
      (rest : FlushesFirst (pending ++ reply.accepted piece) later left) :
      FlushesFirst pending (.wrote piece reply :: later) left
  | flushed {pending left : Bytes} {later : List Event} (rest : FlushesFirst [] later left) :
      FlushesFirst pending (.flushed none :: later) left
  | other {event : Event} {left : Bytes} {later : List Event} (h : ¬ event.IsOutput)
      (rest : FlushesFirst [] later left) : FlushesFirst [] (event :: later) left

theorem accepted_of_not_output {event : Event} (h : ¬ event.IsOutput) : event.accepted = [] := by
  cases event <;> simp_all [IsOutput, Event.accepted]

namespace FlushesFirst

variable {pending between left held : Bytes} {events before after : List Event}

theorem append (h : FlushesFirst pending before between) (h' : FlushesFirst between after left) :
    FlushesFirst pending (before ++ after) left := by
  induction h with
  | done pending => exact h'
  | wrote rest ih => exact .wrote (ih h')
  | flushed rest ih => exact .flushed (ih h')
  | other hevent rest ih => exact .other hevent (ih h')

theorem split (h : FlushesFirst pending (before ++ after) left) :
    ∃ between, FlushesFirst pending before between ∧ FlushesFirst between after left := by
  induction before generalizing pending with
  | nil => exact ⟨pending, .done pending, h⟩
  | cons event before ih =>
    cases h with
    | wrote rest =>
      obtain ⟨between, hbefore, hafter⟩ := ih rest
      exact ⟨between, .wrote hbefore, hafter⟩
    | flushed rest =>
      obtain ⟨between, hbefore, hafter⟩ := ih rest
      exact ⟨between, .flushed hbefore, hafter⟩
    | other hevent rest =>
      obtain ⟨between, hbefore, hafter⟩ := ih rest
      exact ⟨between, .other hevent hbefore, hafter⟩

theorem nothing_pending {event : Event} (h : FlushesFirst pending (event :: after) left)
    (hevent : ¬ event.IsOutput) : pending = [] := by
  cases h with
  | wrote => exact absurd trivial hevent
  | flushed => exact absurd trivial hevent
  | other => rfl

theorem of_offers (h : ∀ e ∈ events, IsOffer e) (pending : Bytes) :
    ∃ left, FlushesFirst pending events left := by
  induction events generalizing pending with
  | nil => exact ⟨pending, .done pending⟩
  | cons event later ih =>
    obtain ⟨hevent, hlater⟩ := List.forall_mem_cons.mp h
    cases event with
    | wrote piece reply =>
      obtain ⟨left, hleft⟩ := ih hlater (pending ++ reply.accepted piece)
      exact ⟨left, .wrote hleft⟩
    | _ => exact absurd hevent id

theorem of_others (h : ∀ e ∈ events, ¬ IsOutput e) : FlushesFirst [] events [] := by
  induction events with
  | nil => exact .done []
  | cons event later ih =>
    obtain ⟨hevent, hlater⟩ := List.forall_mem_cons.mp h
    exact .other hevent (ih hlater)

theorem stillHeld_suffix (h : FlushesFirst pending events left) (hs : held <:+ pending)
    (release : Release) (moment : Nat) : stillHeld release moment held events <:+ left := by
  induction h generalizing held moment with
  | done pending => exact hs
  | @wrote pending left piece reply later rest ih =>
    have hholding : held ++ reply.accepted piece <:+ pending ++ reply.accepted piece :=
      List.suffix_append_self_iff.mpr hs
    exact ih ((List.drop_suffix _ _).trans hholding) (moment + 1)
  | flushed rest ih =>
    refine ih ?_ (moment + 1)
    simp [Event.releases]
  | other hevent rest ih =>
    have hheld := List.suffix_nil.mp hs
    refine ih ?_ (moment + 1)
    simp [hheld, accepted_of_not_output hevent]

/-- Bytes that are held back are shown before anything else is, hence in their place. -/
theorem shown_in_order (h : FlushesFirst pending events left) (hs : held <:+ pending)
    (draw : Record → Bytes) (release : Release) (moment : Nat) :
    shownTogether (arrivals draw release moment held events) = held ++ inOrder draw events := by
  induction h generalizing held moment with
  | done pending => simp [arrivals, shownTogether, inOrder]
  | @wrote pending left piece reply later rest ih =>
    rw [shown_cons, inOrder_cons]
    have hholding : held ++ reply.accepted piece <:+ pending ++ reply.accepted piece :=
      List.suffix_append_self_iff.mpr hs
    have hlater (freed : Nat) := ih ((List.drop_suffix freed _).trans hholding) (moment + 1)
    -- what is let go and what is kept make up what was held
    simp [hlater, ← List.append_assoc, Event.direct, Event.accepted, Event.releases]
  | flushed rest ih =>
    rw [shown_cons, inOrder_cons]
    have hlater := ih List.suffix_rfl (moment + 1)
    simp [hlater, Event.direct, Event.accepted, Event.releases]
  | other hevent rest ih =>
    rw [shown_cons, inOrder_cons, List.suffix_nil.mp hs]
    have hlater := ih List.suffix_rfl (moment + 1)
    simp [hlater, accepted_of_not_output hevent]

end FlushesFirst

theorem offered_offers (piece : Bytes) : ∀ e ∈ offered piece, IsOffer e := by
  unfold offered
  split <;> simp [IsOffer]

theorem offered_then_flushed (piece pending : Bytes) :
    FlushesFirst pending (offered piece ++ [.flushed none]) [] := by
  obtain ⟨between, h⟩ := FlushesFirst.of_offers (offered_offers piece) pending
  exact h.append (.flushed (.done []))

section
variable {s : Session}

theorem execute_flushes_first (h : s.out = .accepting) (list : TokenList) :
    ∃ left, FlushesFirst [] (execute list s).events left := by
  cases hname : list.command? with
  | none =>
    rw [execute_of_empty hname]
    exact ⟨[], .done []⟩
  | some name =>
    cases hbuiltin : Builtin.ofName? name with
    | some builtin =>
      rw [execute_of_builtin hname hbuiltin]
      rcases builtin_changes_or_offers builtin list with hchanges | hoffers
      · have hothers := fun e he => (hchanges.events s e he).isQuiet.not_output
        exact ⟨[], .other id (.of_others hothers)⟩
      · obtain ⟨left, hleft⟩ := FlushesFirst.of_offers (hoffers.events s) []
        exact ⟨left, .other id hleft⟩
    | none =>
      rw [execute_of_external hname hbuiltin]
      obtain ⟨later, hevents, hquiet⟩ := runExternal_flushes_first name list s
      rw [hevents, h]
      exact ⟨[], .flushed (.of_others fun e he => (hquiet e he).not_output)⟩

variable (shell : Shell)

theorem report_flushes_first {ε : Type} (h : s.out = .accepting) (command : String)
    (error : CommandError) (pending : Bytes) :
    FlushesFirst pending (shell.report command error s : Step ε Unit).events [] := by
  rw [report_events, h]
  exact .flushed (.of_others fun e he => ((tell_madeOf _).events _ e he).not_output)

theorem executeLine_flushes_first {ε : Type} (h : s.out = .accepting) (line : Bytes) :
    ∃ left, FlushesFirst [] (shell.executeLine line s : Step ε Status).events left := by
  obtain ⟨between, hexecute⟩ := execute_flushes_first h (tokenize line)
  cases hr : (execute (tokenize line) s).result with
  | ok status =>
    rw [executeLine_of_ok shell hr]
    exact ⟨between, hexecute⟩
  | error error =>
    rw [executeLine_of_error shell hr]
    have hout := (execute_madeOf (tokenize line)).keeps_accepting h
    exact ⟨[], hexecute.append (report_flushes_first shell hout _ error between)⟩

namespace Shell

variable {shell}

theorem closing_flushes_first (failure : Option Fault) (pending : Bytes) :
    FlushesFirst pending (shell.closing failure) [] := by
  have hprompt := offered_then_flushed (Bytes.ofString shell.prompt) pending
  cases failure with
  | none => exact hprompt.append (.other id (offered_then_flushed [newline] []))
  | some fault => exact hprompt

theorem follow_flushes_first (failure : Option Fault) (lines : List Bytes) (h : s.out = .accepting)
    (pending : Bytes) : FlushesFirst pending (shell.follow failure lines s).events [] := by
  -- a built-in may leave output pending, and the next prompt's flush takes it along
  induction lines generalizing s pending with
  | nil => exact closing_flushes_first failure pending
  | cons line later ih =>
    have hprompt := offered_then_flushed (Bytes.ofString shell.prompt) pending
    obtain ⟨left, hturn⟩ := executeLine_flushes_first (ε := ShellError) shell h line
    by_cases hexit : asksToExit line = true
    · rw [follow, takeTurn_of_exit hexit]
      exact hprompt.append (.other id (hturn.append (.flushed (.done []))))
    · rw [follow, takeTurn_of_proceed hexit]
      have hlater := ih (executeLine_keeps_opened (ε := ShellError) h shell line) left
      exact hprompt.append (.other id (hturn.append hlater))

theorem run_flushes_first (source : Source) (h : s.out = .accepting) :
    FlushesFirst [] (shell.run source s).events [] := by
  rcases source.first_failure with hs | ⟨before, fault, later, hs, rfl⟩
  · rw [run_follows_lines hs h]
    exact follow_flushes_first none _ h []
  · rw [run_follows_wholeLines hs h]
    exact follow_flushes_first (some fault) _ h []

end Shell
end

/-- Whatever a channel holds back and whenever it lets go of it, a run shows the same bytes in the
same order as on a channel that holds nothing, and leaves none behind. Nothing but output happens
while a byte is held. -/
theorem run_shows_the_same_however_held (shell : Shell) (source : Source) (s : Session)
    (draw : Record → Bytes) (release : Release) (ho : s.out.TakesAll) :
    let run := shell.run source s
    let plain := shell.run source s.opened
    run.result = plain.result ∧
      shownTogether (arrivals draw release 0 [] run.events) =
        shownTogether (arrivals draw atOnce 0 [] plain.events) ∧
      stillHeld release 0 [] run.events = [] ∧
      ∀ before event after, run.events = before ++ event :: after → ¬ event.IsOutput →
        stillHeld release 0 [] before = [] := by
  intro run plain
  have hevents : run.events = plain.events := run_opened_events ho shell source
  have horder : FlushesFirst [] run.events [] := hevents ▸ Shell.run_flushes_first source rfl
  refine ⟨(run_opened ho shell source).result, ?_, ?_, ?_⟩
  · rw [horder.shown_in_order List.suffix_rfl, hevents]
    exact ((hevents ▸ horder).shown_in_order List.suffix_rfl draw atOnce 0).symm
  · exact List.suffix_nil.mp (horder.stillHeld_suffix List.suffix_rfl release 0)
  · intro before event after heq hevent
    rw [heq] at horder
    obtain ⟨between, hbefore, hafter⟩ := horder.split
    have hheld := hbefore.stillHeld_suffix List.suffix_rfl release 0
    rw [hafter.nothing_pending hevent] at hheld
    exact List.suffix_nil.mp hheld

/-- Output, a diagnostic and output again, on a channel that keeps all it can. -/
theorem run_shows_the_same_held_until_flush :
    let out : Channel := .answering ⟨fun _ _ => .whole, fun _ => none⟩ []
    let s : Session := ⟨Machine.world [("A", "1")], out, .accepting⟩
    let source : Source := [.bytes 103 (Bytes.ofString "et A\nnope\nget A")]
    let shell := Shell.mk "$ " .plain
    let draw : Record → Bytes := fun _ => []
    let run := shell.run source s
    out.TakesAll ∧ stillHeld untilFlush 0 [] run.events = [] ∧
      shownTogether (arrivals draw untilFlush 0 [] run.events) =
        shownTogether (arrivals draw atOnce 0 [] (shell.run source s.opened).events) := by
  intro out s source shell draw run
  have ho : out.TakesAll := Channel.answering_takesAll [] (fun _ _ => rfl) (fun _ => rfl)
  have h := run_shows_the_same_however_held shell source s draw untilFlush ho
  exact ⟨ho, h.2.2.1, h.2.1⟩

end LineShell
