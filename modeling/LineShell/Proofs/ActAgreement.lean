import LineShell.Proofs.Requests

/-!
# Acts that cannot tell two sessions apart

Two sessions may differ in ways that no command can see: how an output channel keeps its books, or
what becomes of diagnostics. A relation between such sessions has to be kept by the requests that
commands are made of. Every command then keeps it, and so does the loop.
-/
namespace LineShell

open Event (IsComplaint)

namespace Act

variable {ε δ α β : Type}

/-- Two steps with one result that end in related sessions, and of which an onlooker who sees only
some of the events sees the same. -/
structure SameStep (R : Session → Session → Prop) (seen : Event → Bool) (p q : Step ε α) :
    Prop where
  result : p.result = q.result
  events : p.events.filter seen = q.events.filter seen
  session : R p.session q.session

def Agree (R : Session → Session → Prop) (seen : Event → Bool) (f g : Act ε α) : Prop :=
  ∀ s t, R s t → SameStep R seen (f s) (g t)

/-- Related sessions are in the same world, and their output channels answer alike. Nothing is said
of diagnostics, since no command sees what becomes of them. -/
structure Indistinct (R : Session → Session → Prop) : Prop where
  world : ∀ {s t}, R s t → s.world = t.world
  setWorld : ∀ {s t}, R s t → ∀ w, R { s with world := w } { t with world := w }
  write_reply : ∀ {s t}, R s t → ∀ piece, (s.out.write piece).1 = (t.out.write piece).1
  write : ∀ {s t}, R s t → ∀ piece,
    R { s with out := (s.out.write piece).2 } { t with out := (t.out.write piece).2 }
  flush_fault : ∀ {s t}, R s t → s.out.flush.1 = t.out.flush.1
  flush : ∀ {s t}, R s t → R { s with out := s.out.flush.2 } { t with out := t.out.flush.2 }

variable {R : Session → Session → Prop} {seen : Event → Bool}

theorem Agree.pure (a : α) : Agree R seen (Pure.pure a : Act ε α) (Pure.pure a) :=
  fun _ _ h => ⟨rfl, rfl, h⟩

theorem Agree.fail (error : ε) : Agree R seen (fail error : Act ε α) (fail error) :=
  fun _ _ h => ⟨rfl, rfl, h⟩

theorem Agree.happen (event : Event) : Agree R seen (happen event : Act ε Unit) (happen event) :=
  fun _ _ h => ⟨rfl, rfl, h⟩

theorem Agree.ofFault? (fault? : Option ε) :
    Agree R seen (ofFault? fault?) (ofFault? fault?) := by
  cases fault? with
  | none => exact .pure ()
  | some fault => exact .fail fault

theorem Agree.bind {f f' : Act ε α} {g g' : α → Act ε β} (hf : Agree R seen f f')
    (hg : ∀ a, Agree R seen (g a) (g' a)) : Agree R seen (f >>= g) (f' >>= g') := by
  intro s t h
  have first := hf s t h
  cases hr : (f s).result with
  | error error =>
    rw [bind_error hr, bind_error (first.result ▸ hr)]
    exact ⟨rfl, first.events, first.session⟩
  | ok a =>
    rw [bind_ok hr, bind_ok (first.result ▸ hr)]
    have second := hg a _ _ first.session
    exact ⟨second.result, by simp [first.events, second.events], second.session⟩

theorem Agree.mapError {f g : Act ε α} (k : ε → δ) (h : Agree R seen f g) :
    Agree R seen (f.mapError k) (g.mapError k) := by
  intro s t hst
  have step := h s t hst
  exact ⟨congrArg (Except.mapError k) step.result, step.events, step.session⟩

theorem Agree.attempt {f g : Act ε α} (h : Agree R seen f g) :
    Agree R seen (f.attempt : Act δ (Except ε α)) g.attempt := by
  intro s t hst
  have step := h s t hst
  exact ⟨congrArg Except.ok step.result, step.events, step.session⟩

section
variable (hR : Indistinct R)
include hR

theorem Agree.world : Agree R seen (world : Act ε World) world :=
  fun _ _ h => ⟨congrArg Except.ok (hR.world h), rfl, h⟩

theorem Agree.setWorld (w : World) : Agree R seen (setWorld w : Act ε Unit) (setWorld w) :=
  fun _ _ h => ⟨rfl, rfl, hR.setWorld h w⟩

theorem Agree.write (piece : Bytes) : Agree R seen (write piece) (write piece) := by
  unfold Act.write
  split
  · exact .pure ()
  · refine Agree.bind (fun s t h => ⟨?_, ?_, hR.write h piece⟩) fun reply => .ofFault? reply.fault?
    · exact congrArg Except.ok (hR.write_reply h piece)
    · simp only [hR.write_reply h piece]

theorem Agree.flush : Agree R seen flush flush := by
  refine Agree.bind (fun s t h => ⟨?_, ?_, hR.flush h⟩) Agree.ofFault?
  · exact congrArg Except.ok (hR.flush_fault h)
  · simp only [hR.flush_fault h]

/-- Whatever is made of requests tells related sessions apart no better than the requests do. -/
theorem Agree.of_madeOf {f : Act ε α} {moves : Prop} (h : MadeOf (¬ IsComplaint ·) moves f) :
    Agree R seen f f := by
  induction h with
  | pure a => exact .pure a
  | fail error => exact .fail error
  | happen => exact .happen _
  | world => exact .world hR
  | setWorld _ w => exact .setWorld hR w
  | write piece => exact .write hR piece
  | flush => exact .flush hR
  | complain piece h => exact absurd trivial (h .whole)
  | bind _ _ first next => exact .bind first next
  | mapError k _ h => exact .mapError k h
  | attempt _ h => exact .attempt h

end
end Act

open Act (Agree Indistinct)

variable {R : Session → Session → Prop} {seen : Event → Bool}

section
variable (hR : Indistinct R)
include hR

theorem execute_agree (list : TokenList) : Agree R seen (execute list) (execute list) :=
  .of_madeOf hR ((execute_madeOf list).mono (fun _ => Event.IsWork.not_complaint) id)

/-- Nor does the loop, as long as two reports do to related sessions what the onlooker cannot tell
apart. The two shells need not draw diagnostics alike. -/
theorem executeLine_agree {shell shell' : Shell} {ε : Type}
    (hreport : ∀ command error, Agree R seen (shell.report command error : Act ε Unit)
      (shell'.report command error)) (line : Bytes) :
    Agree R seen (shell.executeLine line : Act ε Status) (shell'.executeLine line) := by
  refine .bind (.attempt (execute_agree hR (tokenize line))) fun outcome => ?_
  cases outcome with
  | ok status => exact .pure _
  | error error => exact .bind (hreport _ _) fun _ => .pure _

theorem writeOut_agree (bytes : Bytes) :
    Agree R seen (Shell.writeOut bytes) (Shell.writeOut bytes) :=
  .mapError _ (.write hR bytes)

theorem flushOut_agree : Agree R seen Shell.flushOut Shell.flushOut :=
  .mapError _ (.flush hR)

theorem run_agree {shell shell' : Shell} (hprompt : shell.prompt = shell'.prompt)
    (hreport : ∀ command error, Agree R seen (shell.report command error : Act ShellError Unit)
      (shell'.report command error)) (source : Source) :
    Agree R seen (shell.run source) (shell'.run source) := by
  -- the source gets smaller with every line, as in the recursion of the loop itself
  induction hn : source.size using Nat.strongRecOn generalizing source with
  | ind n ih =>
    rw [shell.run_eq, shell'.run_eq, hprompt]
    refine .bind (writeOut_agree hR _) fun _ => .bind (flushOut_agree hR) fun _ => ?_
    split
    · exact .fail _
    · exact .bind (.happen _) fun _ => .bind (writeOut_agree hR _) fun _ =>
        .bind (flushOut_agree hR) fun _ => .pure _
    · next line hline =>
      refine .bind (.happen _) fun _ => .bind (executeLine_agree hR hreport line) fun status => ?_
      cases status with
      | exit code => exact .bind (flushOut_agree hR) fun _ => .pure _
      | proceed => exact ih _ (hn ▸ Source.size_readLine_lt hline) _ rfl

end
end LineShell
