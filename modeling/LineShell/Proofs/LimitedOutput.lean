import LineShell.Proofs.CommandEffects

/-!
# Output that runs out of room

A channel with room for so many bytes is told from one that takes everything by the first byte that
does not fit. Up to there a run on it does the same. The piece that does not fit is either the
loop's own, which ends the run, or a built-in's, which does nothing else; then the next prompt ends
the run.
-/
namespace LineShell

open Act (MadeOf)
open Event (IsOffer IsStart)
open Bytes (lines newline)

/-- The same session with room for that many bytes of output. -/
def Session.within (s : Session) (room : Nat) (fault : Fault) : Session :=
  { s with out := .limited room fault }

def children (events : List Event) : List (List Bytes × Variables) :=
  events.filterMap fun
    | .started argv vars => some (argv, vars)
    | _ => none

theorem children_append (before after : List Event) :
    children (before ++ after) = children before ++ children after :=
  List.filterMap_append

theorem children_eq_nil {events : List Event} (h : ∀ e ∈ events, ¬ IsStart e) :
    children events = [] := by
  rw [children, List.filterMap_eq_nil_iff]
  intro e he
  cases e with
  | started argv vars => exact absurd trivial (h _ he)
  | _ => rfl

theorem written_eq_nil {events : List Event} (h : ∀ e ∈ events, ¬ IsOffer e) :
    written events = [] := by
  rw [written, List.flatMap_eq_nil_iff]
  intro e he
  cases e with
  | wrote piece reply => exact absurd trivial (h _ he)
  | _ => rfl

theorem take_add_length {α : Type} (n : Nat) (before after : List α) :
    (before ++ after).take (n + before.length) = before ++ after.take n := by
  rw [Nat.add_comm, List.take_length_add_append]

theorem children_offered (piece : Bytes) : children (offered piece) = [] := by
  unfold offered
  split <;> rfl

section
variable (s : Session) {room : Nat} (fault : Fault)

theorem write_within (piece : Bytes) (left : Nat) :
    Act.write piece (s.within (left + piece.length) fault) =
      ⟨.ok (), offered piece, s.within left fault⟩ := by
  rw [Act.write_step, offered]
  split
  · next hempty =>
    rw [List.isEmpty_iff.mp hempty]
    rfl
  · simp [Session.within, Channel.write, WriteReply.fault?]

theorem write_over {piece : Bytes} (h : room < piece.length) :
    Act.write piece (s.within room fault) =
      ⟨.error fault, [.wrote piece (.cut room fault)], s.within 0 fault⟩ := by
  have hne : piece.isEmpty = false := by
    cases piece with
    | nil => simp at h
    | cons => rfl
  rw [Act.write_step, hne]
  simp [Session.within, Channel.write, Nat.not_le.mpr h, WriteReply.fault?]

theorem Act.MadeOf.keeps_limited {ε α : Type} {p : Event → Prop} {moves : Prop} {f : Act ε α}
    (h : MadeOf p moves f) (room : Nat) :
    ∃ left, (f (s.within room fault)).session.out = .limited left fault := by
  refine h.keeps_out (P := fun c => ∃ left, c = .limited left fault) ?_ ?_ ⟨room, rfl⟩
  · rintro c piece ⟨left, rfl⟩
    rw [Channel.write]
    split <;> exact ⟨_, rfl⟩
  · rintro c ⟨left, rfl⟩
    exact ⟨left, rfl⟩

/-- Given room for what it writes, an act does what it does where there is room for everything. -/
theorem Act.MadeOf.within {ε α : Type} {p : Event → Prop} {moves : Prop} {f : Act ε α}
    {s : Session} (h : MadeOf p moves f) (hs : s.out = .accepting) (left : Nat) (fault : Fault) :
    f (s.within (left + (written (f s).events).length) fault) =
      ⟨(f s).result, (f s).events, (f s).session.within left fault⟩ := by
  induction h generalizing s left with
  | pure | fail | world | setWorld => rfl
  | @happen _ event hout _ =>
    have hnone : written [event] = [] :=
      written_eq_nil fun e he => List.mem_singleton.mp he ▸ fun hoffer => hout hoffer.isOutput
    simp only [Act.happen, hnone]
    rfl
  | write piece =>
    rw [Shell.write_opened hs, written_offered]
    exact write_within s fault piece left
  | flush =>
    obtain ⟨world, out, err⟩ := s
    subst hs
    rfl
  | complain piece =>
    simp only [Act.complain_step]
    split <;> rfl
  | @bind _ _ _ f g hf _ first next =>
    -- the first act has room for both, and leaves what the second needs
    have hout := hf.keeps_accepting hs
    cases hr : (f s).result with
    | error error =>
      have hfirst := first hs left
      rw [Act.bind_error hr, Act.bind_error (by rw [hfirst, hr]), hfirst]
    | ok a =>
      have hnext := next a hout left
      have hfirst := first hs (left + (written (g a (f s).session).events).length)
      rw [Act.bind_ok hr, written_append, List.length_append, Nat.add_comm (written _).length,
        ← Nat.add_assoc, Act.bind_ok (by rw [hfirst, hr]), hfirst, hnext]
  | mapError k _ h | attempt _ h =>
    have hstep := h hs left
    simp only [Act.mapError, Act.attempt]
    rw [hstep]

theorem Channel.write_full (piece : Bytes) :
    ((Channel.limited 0 fault).write piece).2 = .limited 0 fault := by
  rw [Channel.write]
  split <;> simp

theorem writeEach_over {pieces : List Bytes} (h : room < pieces.flatten.length) :
    ∃ events, Builtin.writeEach pieces (s.within room fault) =
        ⟨.error (.io fault), events, s.within 0 fault⟩ ∧
      written events = pieces.flatten.take room := by
  suffices hpieces : ∃ events, (pieces.forM Act.write : Act Fault Unit) (s.within room fault) =
      ⟨.error fault, events, s.within 0 fault⟩ ∧ written events = pieces.flatten.take room by
    obtain ⟨events, hpieces, hwritten⟩ := hpieces
    exact ⟨events, Act.mapError_of_error hpieces, hwritten⟩
  induction pieces generalizing room with
  | nil => simp at h
  | cons piece pieces ih =>
    rw [List.forM_eq_forM, List.forM_cons, List.flatten_cons]
    by_cases hfits : piece.length ≤ room
    · obtain ⟨left, rfl⟩ := Nat.exists_eq_add_of_le' hfits
      have hpiece := write_within s fault piece left
      have hrest : left < pieces.flatten.length := by
        rw [List.flatten_cons, List.length_append] at h
        omega
      obtain ⟨events, hpieces, hwritten⟩ := ih hrest
      refine ⟨offered piece ++ events, ?_, ?_⟩
      · rw [Act.bind_ok (congrArg Step.result hpiece), hpiece]
        simp only [← List.forM_eq_forM, hpieces]
      · rw [written_append, written_offered, hwritten, take_add_length]
    · rw [Nat.not_le] at hfits
      have hpiece := write_over s fault hfits
      refine ⟨[.wrote piece (.cut room fault)], ?_, ?_⟩
      · rw [Act.bind_error (congrArg Step.result hpiece), hpiece]
      · rw [List.take_append_of_le_length (Nat.le_of_lt hfits)]
        exact List.append_nil _

end

section
variable {list : TokenList} {line : Bytes} {s : Session}

theorem spoken_of_written (h : written (execute list s).events ≠ []) :
    ∃ name builtin pieces, list.command? = some name ∧ Builtin.ofName? name = some builtin ∧
      builtin.spoken list s.world = some pieces := by
  cases hname : list.command? with
  | none => exact absurd (by rw [execute_of_empty hname]; rfl) h
  | some name =>
    cases hb : Builtin.ofName? name with
    | none =>
      obtain ⟨later, hevents, hquiet⟩ := runExternal_flushes_first name list s
      refine absurd ?_ h
      rw [execute_of_external hname hb, hevents]
      exact written_eq_nil fun e he hoffer => by
        rcases List.mem_cons.mp he with rfl | he
        · exact hoffer
        · exact (hquiet e he).not_output hoffer.isOutput
    | some builtin =>
      cases hspoken : builtin.spoken list s.world with
      | some pieces => exact ⟨name, builtin, pieces, rfl, hb, hspoken⟩
      | none =>
        have hchanges := changes_of_unspoken hspoken
        refine absurd ?_ h
        rw [execute_of_builtin hname hb]
        exact written_eq_nil fun e he hoffer => by
          rcases List.mem_cons.mp he with rfl | he
          · exact hoffer
          · exact (hchanges e he).isQuiet.not_output hoffer.isOutput

variable (shell : Shell)

theorem written_executeLine :
    written (shell.executeLine line s : Step ShellError Status).events =
      written (execute (tokenize line) s).events := by
  obtain ⟨told, htold, hevents⟩ := executeLine_events (ε := ShellError) shell line s
  rw [hevents, written_append, written_eq_nil fun e he => (htold e he).not_offer, List.append_nil]

theorem children_executeLine :
    children (shell.executeLine line s : Step ShellError Status).events =
      children (execute (tokenize line) s).events := by
  obtain ⟨told, htold, hevents⟩ := executeLine_events (ε := ShellError) shell line s
  rw [hevents, children_append, children_eq_nil fun e he => (htold e he).not_start,
    List.append_nil]

theorem children_of_builtin {name : Bytes} {builtin : Builtin}
    (hname : (tokenize line).command? = some name) (hb : Builtin.ofName? name = some builtin) :
    children (shell.executeLine line s : Step ShellError Status).events = [] := by
  rw [children_executeLine, execute_of_builtin hname hb]
  exact children_eq_nil fun e he => by
    rcases List.mem_cons.mp he with rfl | he
    · exact id
    · exact (builtin_starts_nothing builtin (tokenize line)).events s e he

theorem execute_over {room : Nat} (fault : Fault) {name : Bytes} {builtin : Builtin}
    {pieces : List Bytes} (hname : list.command? = some name)
    (hb : Builtin.ofName? name = some builtin)
    (hspoken : builtin.spoken list s.world = some pieces) (h : room < pieces.flatten.length) :
    ∃ events, execute list (s.within room fault) =
        ⟨.error (.io fault), events, s.within 0 fault⟩ ∧
      written events = pieces.flatten.take room := by
  obtain ⟨events, heach, hwritten⟩ := writeEach_over s fault h
  have hsay : Builtin.say pieces (s.within room fault) =
      ⟨.error (.io fault), events, s.within 0 fault⟩ := by
    rw [Builtin.say, Act.bind_error (congrArg Step.result heach), heach]
  refine ⟨.record (.builtin (Utf8.lossy name)) :: events, ?_, hwritten⟩
  rw [execute_of_builtin hname hb, run_of_spoken (s := s.within room fault) hspoken, hsay]

theorem executeLine_over {room : Nat} (fault : Fault) (hs : s.out = .accepting)
    (h : room < (written (shell.executeLine line s : Step ShellError Status).events).length) :
    let full : Step ShellError Status := shell.executeLine line s
    let cut : Step ShellError Status := shell.executeLine line (s.within room fault)
    cut.result = .ok .proceed ∧ written cut.events = (written full.events).take room ∧
      children full.events = [] ∧ children cut.events = [] ∧
      cut.session.out = .limited 0 fault ∧ cut.session.world = full.session.world := by
  intro full cut
  have hne : written (execute (tokenize line) s).events ≠ [] := by
    rw [written_executeLine] at h
    exact List.ne_nil_of_length_pos (Nat.zero_lt_of_lt h)
  obtain ⟨name, builtin, pieces, hname, hb, hspoken⟩ := spoken_of_written hne
  have hfull : written full.events = pieces.flatten :=
    written_of_spoken shell (hs ▸ Channel.accepting_takesAll) hname hb hspoken
  obtain ⟨events, hrun, hwritten⟩ := execute_over fault hname hb hspoken (hfull ▸ h)
  have hcut : cut = _ := executeLine_of_error shell (congrArg Step.result hrun)
  have hworld : full.session.world = s.world := by
    rw [executeLine_world, execute_of_builtin hname hb]
    exact world_of_spoken hspoken
  refine ⟨congrArg Step.result hcut, ?_, children_of_builtin shell hname hb,
    children_of_builtin shell hname hb, ?_, ?_⟩
  · rw [hfull, written_executeLine, hrun]
    exact hwritten
  · -- a report flushes and complains, and neither makes room
    rw [hcut, hrun]
    exact (report_madeOf (ε := ShellError) shell _ _).keeps_out (P := (· = .limited 0 fault))
      (fun _ piece hc => hc ▸ Channel.write_full fault piece) (fun _ hc => by rw [hc]; rfl) rfl
  · rw [hworld, executeLine_world, hrun]
    rfl

end

namespace Shell

variable {shell : Shell} {s : Session} {room left : Nat} {fault : Fault} {source : Source}
  {line : Bytes}

theorem written_of_accepting (shell : Shell) (hs : s.out = .accepting) (source : Source) :
    ∃ rest, written (shell.run source s).events = Bytes.ofString shell.prompt ++ rest := by
  rw [run_eq, writeOut_then (writeOut_opened hs _)]
  exact ⟨_, by rw [written_append, written_offered]⟩

theorem writeOut_within (s : Session) (fault : Fault) (piece : Bytes) (left : Nat) :
    writeOut piece (s.within (left + piece.length) fault) =
      ⟨.ok (), offered piece, s.within left fault⟩ :=
  Act.mapError_of_ok (write_within s fault piece left)

theorem writeOut_over (s : Session) (fault : Fault) {piece : Bytes} (h : room < piece.length) :
    writeOut piece (s.within room fault) =
      ⟨.error (.write fault), [.wrote piece (.cut room fault)], s.within 0 fault⟩ :=
  Act.mapError_of_error (write_over s fault h)

theorem run_of_prompt_over (hs : s.out = .limited room fault)
    (h : room < (Bytes.ofString shell.prompt).length) (source : Source) :
    shell.run source s =
      ⟨.error (.write fault), [.wrote (Bytes.ofString shell.prompt) (.cut room fault)],
        s.within 0 fault⟩ := by
  obtain ⟨world, out, err⟩ := s
  subst hs
  have hprompt := writeOut_over ⟨world, .accepting, err⟩ fault h
  rw [run_eq]
  exact (Act.bind_error (congrArg Step.result hprompt)).trans (by rw [hprompt]; rfl)

theorem run_of_end_over (hr : source.readLine.1 = .ok none) :
    shell.run source (s.within (Bytes.ofString shell.prompt).length fault) =
      ⟨.error (.write fault),
        shell.prompting ++ [.record .endOfInput, .wrote [newline] (.cut 0 fault)],
        s.within 0 fault⟩ := by
  have hprompt := writeOut_within s fault (Bytes.ofString shell.prompt) 0
  have hnewline : writeOut [newline] (s.within 0 fault) = _ :=
    writeOut_over s fault Nat.zero_lt_one
  rw [Nat.zero_add] at hprompt
  rw [run_eq, writeOut_then hprompt, flushOut_then rfl]
  simp only [hr, Act.log, happen_then]
  rw [Act.bind_error (congrArg Step.result hnewline), hnewline]
  simp [prompting]

theorem run_within_of_line (hr : source.readLine.1 = .ok (some line)) :
    shell.run source (s.within (left + (Bytes.ofString shell.prompt).length) fault) =
      shell.takeTurn line (shell.run source.readLine.2) (s.within left fault) := by
  obtain ⟨rest, hout⟩ :=
    (executeLine_madeOf (ε := ShellError) shell line).keeps_limited s fault left
  refine run_of_prompted (writeOut_within s fault _ left) rfl hr ?_
  rw [hout]
  rfl

theorem written_finish_none :
    written (shell.finish none s).events = Bytes.ofString shell.prompt ++ [newline] :=
  written_closing_none

theorem written_finish_some (failure : Fault) :
    written (shell.finish (some failure) s).events = Bytes.ofString shell.prompt :=
  written_prompting

/-- A run that comes to the end of its room, beside the run that has room for everything: it
executes the first of the same lines, and nothing follows them. -/
structure CutShort (shell : Shell) (s : Session) (room : Nat) (fault : Fault)
    (plain run : Step ShellError Nat) : Prop where
  result : run.result = .error (.write fault)
  written : written run.events = (written plain.events).take room
  lines : executed run.events <+: executed plain.events
  children : children run.events =
    (shell.turns (executed run.events) s).flatMap fun turn => children turn.step.events
  world : run.session.world = (shell.afterLines (executed run.events) s).world

theorem CutShort.before {plain run : Step ShellError Nat}
    (result : run.result = .error (.write fault))
    (written : LineShell.written run.events = (LineShell.written plain.events).take room)
    (lines : executed run.events = []) (children : LineShell.children run.events = [])
    (world : run.session.world = s.world) : shell.CutShort s room fault plain run where
  result := result
  written := written
  lines := lines ▸ List.nil_prefix
  children := by rw [children, lines]; rfl
  world := by rw [world, lines]; rfl

theorem children_prompting : children shell.prompting = [] := by
  rw [prompting, children_append, children_offered]
  rfl

theorem children_turn (line : Bytes) (turn later : List Event) :
    children (shell.prompting ++ .line line :: (turn ++ later)) =
      children turn ++ children later := by
  rw [children_append, children_prompting, ← children_append]
  rfl

/-- A turn that fits is the same with and without a limit, and the limit falls into a later one. -/
theorem CutShort.later {next next' : Session → Step ShellError Nat} (hs : s.out = .accepting)
    (hexit : asksToExit line ≠ true)
    (h : let turn : Step ShellError Status := shell.executeLine line s
      shell.CutShort turn.session left fault (next turn.session)
        (next' (turn.session.within left fault))) :
    let turn : Step ShellError Status := shell.executeLine line s
    let room := left + (LineShell.written turn.events).length
    shell.CutShort s (room + (Bytes.ofString shell.prompt).length) fault
      (shell.takeTurn line next s) (shell.takeTurn line next' (s.within room fault)) := by
  intro turn room
  have hturn : shell.executeLine line (s.within room fault) = _ :=
    (executeLine_madeOf (ε := ShellError) shell line).within hs left fault
  have hline := executeLine_not_line (ε := ShellError) shell line s
  rw [takeTurn_of_proceed hexit next, takeTurn_of_proceed hexit next', hturn]
  exact {
    result := h.result
    written := by
      rw [written_turn, written_turn, h.written, take_add_length, take_add_length]
    lines := by
      rw [executed_turn line hline, executed_turn line hline]
      exact List.cons_prefix_cons.mpr ⟨rfl, h.lines⟩
    children := by
      rw [children_turn, executed_turn line hline, h.children]
      rfl
    world := by
      rw [executed_turn line hline]
      exact h.world }

theorem CutShort.here (hs : s.out = .accepting) (hne : Bytes.ofString shell.prompt ≠ [])
    (h : left <
      (LineShell.written (shell.executeLine line s : Step ShellError Status).events).length)
    (next : Session → Step ShellError Nat) (source : Source) :
    shell.CutShort s (left + (Bytes.ofString shell.prompt).length) fault
      (shell.takeTurn line next s)
      (shell.takeTurn line (shell.run source) (s.within left fault)) := by
  obtain ⟨hresult, hwritten, hfull, hcut, hout, hworld⟩ :=
    executeLine_over shell fault hs h
  have hexit : asksToExit line ≠ true := by
    intro hexit
    rw [executeLine_result, if_pos hexit] at hresult
    cases hresult
  have hline := executeLine_not_line (ε := ShellError) shell line
  rw [takeTurn_of_proceed hexit next, takeTurn_of_proceed hexit (shell.run source)]
  dsimp only
  rw [run_of_prompt_over hout (List.length_pos_of_ne_nil hne) source]
  exact {
    result := rfl
    written := by
      rw [written_turn, written_turn, take_add_length, hwritten,
        List.take_append_of_le_length (Nat.le_of_lt h)]
      simp [LineShell.written, Event.accepted, WriteReply.accepted]
    lines := by
      rw [executed_turn line (hline _), executed_turn line (hline _)]
      exact List.cons_prefix_cons.mpr ⟨rfl, List.nil_prefix⟩
    children := by
      rw [children_turn, executed_turn line (hline _), hcut]
      exact (congrArg (· ++ []) hfull).symm
    world := by
      rw [executed_turn line (hline _)]
      exact hworld }

theorem CutShort.at_prompt (hs : s.out = .accepting)
    (h : room < (Bytes.ofString shell.prompt).length) (source : Source) :
    shell.CutShort s room fault (shell.run source s) (shell.run source (s.within room fault)) := by
  obtain ⟨rest, hwritten⟩ := written_of_accepting shell hs source
  rw [run_of_prompt_over (s := s.within room fault) rfl h source]
  refine .before rfl ?_ rfl rfl rfl
  rw [hwritten, List.take_append_of_le_length (Nat.le_of_lt h)]
  exact List.append_nil _

theorem CutShort.at_end (hs : s.out = .accepting) (hr : source.readLine.1 = .ok none) :
    shell.CutShort s (Bytes.ofString shell.prompt).length fault (shell.run source s)
      (shell.run source (s.within (Bytes.ofString shell.prompt).length fault)) := by
  rw [run_of_end hs hr, run_of_end_over hr]
  refine .before rfl ?_ ?_ ?_ rfl
  · rw [written_finish_none, List.take_left, written_append, written_prompting]
    exact List.append_nil _
  · rw [executed_append, executed_prompting]
    rfl
  · rw [children_append, children_prompting]
    rfl

theorem run_cut_short (fault : Fault) (hne : Bytes.ofString shell.prompt ≠ [])
    (hs : s.out = .accepting)
    (h : room < (LineShell.written (shell.run source s).events).length) :
    shell.CutShort s room fault (shell.run source s) (shell.run source (s.within room fault)) := by
  -- the source gets smaller with every line, as in the recursion of the loop itself
  induction hn : source.size using Nat.strongRecOn generalizing source s room with
  | ind n ih =>
    by_cases hprompt : (Bytes.ofString shell.prompt).length ≤ room
    · obtain ⟨left, rfl⟩ := Nat.exists_eq_add_of_le' hprompt
      cases hr : source.readLine.1 with
      | error failure =>
        -- nothing follows the prompt, and it fits
        rw [run_of_failed hs hr, written_finish_some] at h
        omega
      | ok read =>
        cases read with
        | none =>
          rw [run_of_end hs hr, written_finish_none, List.length_append, List.length_singleton] at h
          obtain rfl : left = 0 := by omega
          rw [Nat.zero_add]
          exact .at_end hs hr
        | some line =>
          rw [run_of_line hs hr] at h ⊢
          rw [run_within_of_line hr]
          by_cases hfits : (LineShell.written
              (shell.executeLine line s : Step ShellError Status).events).length ≤ left
          · obtain ⟨rest, rfl⟩ := Nat.exists_eq_add_of_le' hfits
            by_cases hexit : asksToExit line = true
            · rw [takeTurn_of_exit hexit (shell.run source.readLine.2)] at h
              simp only [written_turn, List.length_append] at h
              change _ < _ + (_ + 0) at h
              omega
            · rw [takeTurn_of_proceed hexit (shell.run source.readLine.2)] at h
              simp only [written_turn, List.length_append] at h
              refine .later hs hexit (ih _ (hn ▸ Source.size_readLine_lt hr) ?_ ?_ rfl)
              · exact executeLine_keeps_opened hs shell line
              · omega
          · exact .here hs hne (Nat.not_le.mp hfits) _ _
    · exact .at_prompt hs (Nat.not_le.mp hprompt) source

theorem run_has_turns (ho : s.out.TakesAll) (source : Source) :
    ∃ closing, shell.InTurn (executed (shell.run source s).events) s.opened closing
      (shell.run source s) :=
  (run_turns ho source).imp fun _ h => h.2

end Shell

theorem ofString_ne_nil {text : String} (h : text ≠ "") : Bytes.ofString text ≠ [] := by
  intro hnil
  rw [Bytes.ofString, List.flatMap_eq_nil_iff] at hnil
  refine h (String.toList_eq_nil_iff.mp (List.eq_nil_iff_forall_not_mem.mpr fun c hc => ?_))
  have hlength := congrArg List.length (hnil c hc)
  rw [String.length_utf8EncodeChar] at hlength
  exact absurd hlength (Nat.ne_of_gt c.utf8Size_pos)

/-- With room for so many bytes of output, a run shows as much of what it would show as there is
room for. If that is all, nothing else tells the two runs apart. If not, the run with the limit ends
with the failed write and has executed the first lines of the other. -/
theorem run_shows_what_there_is_room_for (shell : Shell) (source : Source) (s : Session)
    (room : Nat) (fault : Fault) (ho : s.out.TakesAll) (hprompt : shell.prompt ≠ "") :
    let plain := shell.run source s
    let run := shell.run source (s.within room fault)
    written run.events = (written plain.events).take room ∧
      ((written plain.events).length ≤ room →
        run.result = plain.result ∧ run.events = plain.events ∧
          run.session.err = plain.session.err ∧ run.session.world = plain.session.world) ∧
      (room < (written plain.events).length →
        (∃ closing, shell.InTurn (executed plain.events) s.opened closing plain) ∧
          shell.CutShort s.opened room fault plain run) := by
  intro plain run
  have hevents : plain.events = (shell.run source s.opened).events :=
    run_opened_events ho shell source
  have hplain := run_opened ho shell source
  by_cases hroom : (written plain.events).length ≤ room
  · obtain ⟨left, hleft⟩ := Nat.exists_eq_add_of_le' hroom
    have hfits := (run_madeOf shell source).within (s := s.opened) rfl left fault
    rw [← hevents, ← hleft] at hfits
    have hrun : run = ⟨_, _, _⟩ := hfits
    rw [hrun]
    refine ⟨(List.take_of_length_le hroom).symm, fun _ => ?_, fun hover => ?_⟩
    · exact ⟨hplain.result.symm, rfl, hplain.session.err.symm, hplain.session.world.symm⟩
    · exact absurd hroom (Nat.not_le.mpr hover)
  · have hcut : shell.CutShort s.opened room fault plain run := by
      have hover : room < (written (shell.run source s.opened).events).length :=
        hevents ▸ Nat.not_le.mp hroom
      have h := Shell.run_cut_short fault (ofString_ne_nil hprompt) rfl hover
      exact ⟨h.result, hevents ▸ h.written, hevents ▸ h.lines, h.children, h.world⟩
    exact ⟨hcut.written, fun h => absurd h hroom, fun _ => ⟨Shell.run_has_turns ho source, hcut⟩⟩

/-- The limit falls between a value and its newline. -/
theorem run_shows_value_without_newline :
    let s : Session := ⟨Machine.world [("A", "1")], .accepting, .accepting⟩
    let source : Source := [.bytes 103 (Bytes.ofString "et A\nset A 2\nget A\n")]
    let shell := Shell.mk "$ " .plain
    let run := shell.run source (s.within 3 .noSpace)
    s.out.TakesAll ∧ shell.prompt ≠ "" ∧ written run.events = Bytes.ofString "$ 1" ∧
      run.result = .error (.write .noSpace) := by
  intro s source shell run
  have ho : s.out.TakesAll := Channel.accepting_takesAll
  have hprompt : shell.prompt ≠ "" := by decide
  have hplain : shell.run source s = shell.follow none (lines source.contents) s :=
    Shell.run_follows_lines (by simp [Source.NeverFails, source]) rfl
  have htake : (written (shell.run source s).events).take 3 = Bytes.ofString "$ 1" := by
    rw [hplain]
    decide +kernel
  have hover : 3 < (written (shell.run source s).events).length := by
    rw [hplain]
    decide +kernel
  obtain ⟨hwritten, _, hcut⟩ :=
    run_shows_what_there_is_room_for shell source s 3 .noSpace ho hprompt
  exact ⟨ho, hprompt, hwritten.trans htake, (hcut hover).2.result⟩

end LineShell
