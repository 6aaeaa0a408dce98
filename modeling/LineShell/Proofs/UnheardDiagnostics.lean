import LineShell.Proofs.LimitedOutput

/-!
# Diagnostics that nobody hears

Nobody asks what became of a diagnostic. So the diagnostic channel may fail at any byte, and
diagnostics may be drawn in any colour: whoever does not watch them cannot tell one run from
another, nor any line of one from the same line of the other.
-/
namespace LineShell

open Act (Agree Indistinct MadeOf SameStep)
open Event (IsComplaint IsOutput)

def besidesDiagnostics : Event → Bool
  | .complained _ _ => false
  | _ => true

/-- Two sessions that can differ in what their diagnostic channels do, and in nothing else. -/
structure ApartInDiagnostics (s t : Session) : Prop where
  world : s.world = t.world
  out : s.out = t.out

/-- What two steps share that differ in nothing but diagnostics. -/
structure SameBesidesDiagnostics {ε α : Type} (p q : Step ε α) : Prop where
  result : p.result = q.result
  events : p.events.filter besidesDiagnostics = q.events.filter besidesDiagnostics
  /-- The writes and flushes of the output channel, each with its reply. -/
  output : p.events.filter (IsOutput ·) = q.events.filter (IsOutput ·)
  lines : executed p.events = executed q.events
  children : children p.events = children q.events
  world : p.session.world = q.session.world
  out : p.session.out = q.session.out

theorem Event.IsComplaint.unseen {e : Event} (h : IsComplaint e) :
    besidesDiagnostics e = false := by
  cases e <;> simp_all [IsComplaint, besidesDiagnostics]

theorem filterMap_besidesDiagnostics {β : Type} {read : Event → Option β}
    (h : ∀ piece reply, read (.complained piece reply) = none) (events : List Event) :
    (events.filter besidesDiagnostics).filterMap read = events.filterMap read := by
  rw [List.filterMap_filter]
  congr 1
  funext event
  cases event with
  | complained piece reply => exact (h piece reply).symm
  | _ => rfl

theorem apartInDiagnostics_indistinct : Indistinct ApartInDiagnostics where
  world h := h.world
  setWorld h _ := ⟨rfl, h.out⟩
  write_reply h piece := by rw [h.out]
  write h piece := ⟨h.world, by rw [h.out]⟩
  flush_fault h := by rw [h.out]
  flush h := ⟨h.world, by rw [h.out]⟩

section
variable {ε δ α β : Type}

theorem complaining_unseen {f : Act ε α} (h : MadeOf IsComplaint False f) (s : Session) :
    (f s).events.filter besidesDiagnostics = [] ∧ ApartInDiagnostics (f s).session s := by
  constructor
  · rw [List.filter_eq_nil_iff]
    intro e he
    simp [(h.events s e he).unseen]
  · refine h.keeps (P := (ApartInDiagnostics · s)) ?_ ?_ ?_ ?_ ⟨rfl, rfl⟩
    · intro hmoves
      exact hmoves.elim
    · intro t piece hwrote
      exact (hwrote .whole).elim
    · intro t hflushed
      exact (hflushed none).elim
    · intro t piece _ ht
      exact ⟨ht.world, ht.out⟩

theorem complaining_agree {f : Act ε α} {g : Act ε β} (hf : MadeOf IsComplaint False f)
    (hg : MadeOf IsComplaint False g) :
    Agree ApartInDiagnostics besidesDiagnostics
      (do let _ ← f.attempt; pure () : Act δ Unit) (do let _ ← g.attempt; pure ()) := by
  intro s t h
  obtain ⟨hseen, hapart⟩ := complaining_unseen hf s
  obtain ⟨hseen', hapart'⟩ := complaining_unseen hg t
  rw [Act.bind_ok rfl, Act.bind_ok rfl]
  refine ⟨rfl, ?_, ?_⟩
  · simp [Act.attempt, Pure.pure, Act.pure, hseen, hseen']
  · exact ⟨hapart.world.trans (h.world.trans hapart'.world.symm),
      hapart.out.trans (h.out.trans hapart'.out.symm)⟩

end

theorem unheard_report_agree {ε : Type} (shell shell' : Shell) (command : String)
    (error : CommandError) :
    Agree ApartInDiagnostics besidesDiagnostics (shell.report command error : Act ε Unit)
      (shell'.report command error) :=
  .bind (.attempt (.flush apartInDiagnostics_indistinct)) fun _ =>
    complaining_agree (tell_madeOf _) (tell_madeOf _)

theorem Act.SameStep.besidesDiagnostics {ε α : Type} {p q : Step ε α}
    (h : SameStep ApartInDiagnostics besidesDiagnostics p q) : SameBesidesDiagnostics p q := by
  have read {β : Type} (f : Event → Option β)
      (hf : ∀ piece reply, f (.complained piece reply) = none) :
      p.events.filterMap f = q.events.filterMap f := by
    rw [← filterMap_besidesDiagnostics hf, h.events, filterMap_besidesDiagnostics hf]
  refine ⟨h.result, h.events, ?_, ?_, ?_, h.session.world, h.session.out⟩
  · rw [← List.filterMap_eq_filter]
    exact read _ fun _ _ => rfl
  · exact read _ fun _ _ => rfl
  · exact read _ fun _ _ => rfl

section
variable (shell shell' : Shell) {s t : Session}

theorem executeLine_besidesDiagnostics (h : ApartInDiagnostics s t) (line : Bytes) :
    SameStep ApartInDiagnostics besidesDiagnostics
      (shell.executeLine line s : Step ShellError Status) (shell'.executeLine line t) :=
  executeLine_agree apartInDiagnostics_indistinct (unheard_report_agree shell shell') line s t h

theorem run_besidesDiagnostics (hprompt : shell.prompt = shell'.prompt)
    (h : ApartInDiagnostics s t) (source : Source) :
    SameBesidesDiagnostics (shell.run source s) (shell'.run source t) :=
  (run_agree apartInDiagnostics_indistinct hprompt (unheard_report_agree shell shell') source s t
    h).besidesDiagnostics

theorem turns_besidesDiagnostics (h : ApartInDiagnostics s t) (lines : List Bytes) :
    List.Forall₂ (fun p q => p.line = q.line ∧ SameBesidesDiagnostics p.step q.step)
      (shell.turns lines s) (shell'.turns lines t) := by
  induction lines generalizing s t with
  | nil => exact .nil
  | cons line later ih =>
    have hline := executeLine_besidesDiagnostics shell shell' h line
    exact .cons ⟨rfl, hline.besidesDiagnostics⟩ (ih hline.session)

end

/-- Take two shells with one prompt in one world and in front of one output channel, which may
answer as it likes. However their diagnostics are drawn, and whatever the two diagnostic channels
make of them, their runs share everything else, and so do any lines that they execute one by one. -/
theorem diagnostics_never_feed_back (prompt : String) (drawn drawn' : Highlighter) (w : World)
    (out err err' : Channel) :
    (∀ source,
      SameBesidesDiagnostics ((Shell.mk prompt drawn).run source ⟨w, out, err⟩)
        ((Shell.mk prompt drawn').run source ⟨w, out, err'⟩)) ∧
    (∀ lines,
      List.Forall₂ (fun p q => p.line = q.line ∧ SameBesidesDiagnostics p.step q.step)
        ((Shell.mk prompt drawn).turns lines ⟨w, out, err⟩)
        ((Shell.mk prompt drawn').turns lines ⟨w, out, err'⟩)) := by
  have h : ApartInDiagnostics ⟨w, out, err⟩ ⟨w, out, err'⟩ := ⟨rfl, rfl⟩
  constructor
  · intro source
    exact run_besidesDiagnostics ⟨prompt, drawn⟩ ⟨prompt, drawn'⟩ rfl h source
  · intro lines
    exact turns_besidesDiagnostics ⟨prompt, drawn⟩ ⟨prompt, drawn'⟩ h lines

end LineShell
