import LineShell.Proofs.CommandEvents

/-!
# Output that takes everything

All channels that take every piece and fail no flush look the same from within the shell, whatever
they do with the bytes. The plainest of them keeps no state and can stand for the others.
-/
namespace LineShell
namespace Channel

/-- The channel after some calls, the first of them first. -/
def after : Channel → List Call → Channel
  | channel, [] => channel
  | channel, .write piece :: calls => (channel.write piece).2.after calls
  | channel, .flush :: calls => channel.flush.2.after calls

def TakesAll (channel : Channel) : Prop :=
  ∀ calls, (∀ piece, ((channel.after calls).write piece).1 = .whole) ∧
    (channel.after calls).flush.1 = none

theorem accepting_after (calls : List Call) : accepting.after calls = accepting := by
  induction calls with
  | nil => rfl
  | cons call calls ih => cases call <;> exact ih

theorem accepting_takesAll : accepting.TakesAll := by
  intro calls
  rw [accepting_after]
  exact ⟨fun _ => rfl, rfl⟩

/-- A channel whose answers never tell of a failure, however they come about. -/
theorem answering_takesAll {behaviour : Behaviour} (calls : List Call)
    (hw : ∀ before piece, behaviour.write before piece = .whole)
    (hf : ∀ before, behaviour.flush before = none) :
    (answering behaviour calls).TakesAll := by
  intro later
  induction later generalizing calls with
  | nil => exact ⟨hw calls, hf calls⟩
  | cons call later ih => cases call <;> exact ih _

variable {channel : Channel}

theorem TakesAll.write_whole (h : channel.TakesAll) (piece : Bytes) :
    (channel.write piece).1 = .whole :=
  (h []).1 piece

theorem TakesAll.flush_none (h : channel.TakesAll) : channel.flush.1 = none := (h []).2

theorem TakesAll.write (h : channel.TakesAll) (piece : Bytes) : (channel.write piece).2.TakesAll :=
  fun calls => h (.write piece :: calls)

theorem TakesAll.flush (h : channel.TakesAll) : channel.flush.2.TakesAll :=
  fun calls => h (.flush :: calls)

end Channel

open Act (Agree Indistinct SameStep)

def everything : Event → Bool := fun _ => true

theorem filter_everything (events : List Event) : events.filter everything = events :=
  List.filter_eq_self.mpr fun _ _ => rfl

structure BothOpen (s t : Session) : Prop where
  world : s.world = t.world
  err : s.err = t.err
  left : s.out.TakesAll
  right : t.out.TakesAll

theorem bothOpen_indistinct : Indistinct BothOpen where
  world h := h.world
  setWorld h _ := ⟨rfl, h.err, h.left, h.right⟩
  write_reply h piece := (h.left.write_whole piece).trans (h.right.write_whole piece).symm
  write h piece := ⟨h.world, h.err, h.left.write piece, h.right.write piece⟩
  flush_fault h := h.left.flush_none.trans h.right.flush_none.symm
  flush h := ⟨h.world, h.err, h.left.flush, h.right.flush⟩

theorem report_agree {R : Session → Session → Prop} {seen : Event → Bool} (hR : Indistinct R)
    (hc : ∀ piece, Agree R seen (Act.complain piece) (Act.complain piece)) {ε : Type}
    (shell : Shell) (command : String) (error : CommandError) :
    Agree R seen (shell.report command error : Act ε Unit) (shell.report command error) := by
  refine .bind (.attempt (.flush hR)) fun _ => .bind (.attempt ?_) fun _ => .pure _
  exact .bind (hc _) fun _ => hc _

theorem bothOpen_report {ε : Type} (shell : Shell) (command : String) (error : CommandError) :
    Agree BothOpen everything (shell.report command error : Act ε Unit)
      (shell.report command error) := by
  refine report_agree bothOpen_indistinct (fun piece s t h => ?_) shell command error
  rw [Act.complain_step, Act.complain_step, h.err]
  split
  · exact ⟨rfl, rfl, h⟩
  · exact ⟨rfl, rfl, h.world, rfl, h.left, h.right⟩

def Session.opened (s : Session) : Session := { s with out := .accepting }

theorem run_opened {s : Session} (h : s.out.TakesAll) (shell : Shell) (source : Source) :
    SameStep BothOpen everything (shell.run source s) (shell.run source s.opened) :=
  run_agree bothOpen_indistinct rfl (bothOpen_report shell) source s s.opened
    ⟨rfl, rfl, h, Channel.accepting_takesAll⟩

theorem run_opened_events {s : Session} (h : s.out.TakesAll) (shell : Shell) (source : Source) :
    (shell.run source s).events = (shell.run source s.opened).events := by
  simpa only [filter_everything] using (run_opened h shell source).events

theorem Act.MadeOf.keeps_accepting {ε α : Type} {p : Event → Prop} {moves : Prop} {f : Act ε α}
    (h : MadeOf p moves f) {s : Session} (hs : s.out = .accepting) :
    (f s).session.out = .accepting :=
  h.keeps_out (P := (· = .accepting)) (fun _ _ hc => by rw [hc]; rfl) (fun _ hc => by rw [hc]; rfl)
    hs

theorem executeLine_keeps_opened {s : Session} (h : s.out = .accepting) {ε : Type} (shell : Shell)
    (line : Bytes) : (shell.executeLine line s : Step ε Status).session.out = .accepting :=
  (executeLine_madeOf shell line).keeps_accepting h

theorem executeLine_keeps_takesAll {s : Session} (h : s.out.TakesAll) {ε : Type} (shell : Shell)
    (line : Bytes) : (shell.executeLine line s : Step ε Status).session.out.TakesAll :=
  (executeLine_madeOf shell line).keeps_out (P := Channel.TakesAll) (fun _ piece h => h.write piece)
    (fun _ h => h.flush) h

end LineShell
