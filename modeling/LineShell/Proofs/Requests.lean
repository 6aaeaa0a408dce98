import LineShell.Shell

/-!
# What acts are made of

An act reaches the session through single requests only: it looks at the world or replaces it,
offers a piece, asks for a flush, complains, or lets something be seen. So what every request keeps
is kept by all acts, and the events of an act are of the kinds that its requests have.

A command either offers pieces to the output channel or does something else, never one after the
other. Only what launches a program asks for a flush.
-/
namespace LineShell
namespace Event

def IsOffer : Event → Prop
  | wrote _ _ => True
  | _ => False

def IsOutput : Event → Prop
  | wrote _ _ | flushed _ => True
  | _ => False

instance : DecidablePred IsOutput
  | wrote _ _ | flushed _ => isTrue trivial
  | line _ | complained _ _ | bound _ _ | requested _ | started _ _ | childWrote _ _ | record _ =>
    isFalse id

/-- What the shell does by itself, without output and without a child. -/
def IsInternal : Event → Prop
  | bound _ _ | record _ => True
  | _ => False

/-- What a built-in is seen to do besides offering: it binds variables and notes where it moved. -/
def IsChange : Event → Prop
  | bound _ _ | record (.moved _) => True
  | _ => False

/-- What is seen of a child while its parent waits. -/
def IsLife : Event → Prop
  | childWrote _ _ | record _ => True
  | _ => False

/-- What is seen of a child after its start, its end included. -/
def IsOfChild : Event → Prop
  | childWrote _ _ | record (.spawned _ _) | record (.stopped _ _) => True
  | record (.exited _ _) | record (.killed _ _) => True
  | _ => False

/-- What commands do besides output: variables, programs and records. -/
def IsQuiet : Event → Prop
  | bound _ _ | requested _ | started _ _ | childWrote _ _ | record _ => True
  | _ => False

/-- The beginning of a child, as far as it got. -/
def IsStart : Event → Prop
  | requested _ | started _ _ => True
  | _ => False

def IsComplaint : Event → Prop
  | complained _ _ => True
  | _ => False

/-- What is made of a failure: a flush, then what goes to the diagnostic channel. -/
def IsReport : Event → Prop
  | flushed _ | complained _ _ => True
  | _ => False

def IsLine : Event → Prop
  | line _ => True
  | _ => False

def IsOwn : Event → Prop
  | line _ | wrote _ _ | flushed _ | record .endOfInput => True
  | _ => False

def IsWork (e : Event) : Prop := IsOutput e ∨ IsQuiet e

theorem started_isStart (argv : List Bytes) (vars : Variables) : IsStart (started argv vars) :=
  trivial

variable {e : Event}

theorem IsOffer.isOutput (h : IsOffer e) : IsOutput e := by
  cases e <;> simp_all [IsOffer, IsOutput]

theorem IsChange.isQuiet (h : IsChange e) : IsQuiet e := by
  cases e <;> simp_all [IsChange, IsQuiet]

theorem IsOfChild.isLife (h : IsOfChild e) : IsLife e := by
  cases e <;> simp_all [IsOfChild, IsLife]

theorem IsLife.isQuiet (h : IsLife e) : IsQuiet e := by
  cases e <;> simp_all [IsLife, IsQuiet]

theorem IsQuiet.not_output (h : IsQuiet e) : ¬ IsOutput e := by
  cases e <;> simp_all [IsQuiet, IsOutput]

theorem IsComplaint.not_output (h : IsComplaint e) : ¬ IsOutput e := by
  cases e <;> simp_all [IsComplaint, IsOutput]

theorem IsInternal.not_start (h : IsInternal e) : ¬ IsStart e := by
  cases e <;> simp_all [IsInternal, IsStart]

theorem IsChange.not_start (h : IsChange e) : ¬ IsStart e := by
  cases e <;> simp_all [IsChange, IsStart]

theorem IsLife.not_start (h : IsLife e) : ¬ IsStart e := by
  cases e <;> simp_all [IsLife, IsStart]

theorem IsOutput.not_start (h : IsOutput e) : ¬ IsStart e := by
  cases e <;> simp_all [IsOutput, IsStart]

theorem IsReport.not_offer (h : IsReport e) : ¬ IsOffer e := by
  cases e <;> simp_all [IsReport, IsOffer]

theorem IsReport.not_start (h : IsReport e) : ¬ IsStart e := by
  cases e <;> simp_all [IsReport, IsStart]

theorem IsReport.not_line (h : IsReport e) : ¬ IsLine e := by
  cases e <;> simp_all [IsReport, IsLine]

theorem IsOwn.not_start (h : IsOwn e) : ¬ IsStart e := by
  cases e <;> simp_all [IsOwn, IsStart]

theorem IsWork.not_line (h : IsWork e) : ¬ IsLine e := by
  cases e <;> simp_all [IsWork, IsOutput, IsQuiet, IsLine]

theorem IsWork.not_complaint (h : IsWork e) : ¬ IsComplaint e := by
  cases e <;> simp_all [IsWork, IsOutput, IsQuiet, IsComplaint]

end Event

open Event (IsOffer IsOutput IsChange IsLife IsOfChild IsQuiet IsStart IsComplaint IsReport IsLine
  IsOwn IsWork)

namespace Act

variable {ε δ α β : Type} {p : Event → Prop}

theorem bind_error {f : Act ε α} {g : α → Act ε β} {s : Session} {error : ε}
    (h : (f s).result = .error error) :
    (f >>= g) s = ⟨.error error, (f s).events, (f s).session⟩ := by
  change Act.bind f g s = _
  unfold Act.bind
  split <;> simp_all

theorem bind_ok {f : Act ε α} {g : α → Act ε β} {s : Session} {a : α}
    (h : (f s).result = .ok a) :
    (f >>= g) s = ⟨(g a (f s).session).result, (f s).events ++ (g a (f s).session).events,
      (g a (f s).session).session⟩ := by
  change Act.bind f g s = _
  unfold Act.bind
  split <;> simp_all

theorem mapError_of_ok {k : ε → δ} {f : Act ε α} {s s' : Session} {a : α} {events : List Event}
    (h : f s = ⟨.ok a, events, s'⟩) : f.mapError k s = ⟨.ok a, events, s'⟩ := by
  rw [mapError, h]
  rfl

theorem mapError_of_error {k : ε → δ} {f : Act ε α} {s s' : Session} {error : ε}
    {events : List Event} (h : f s = ⟨.error error, events, s'⟩) :
    f.mapError k s = ⟨.error (k error), events, s'⟩ := by
  rw [mapError, h]
  rfl

@[simp]
theorem ofExcept_mapError_ok (k : ε → δ) (a : α) :
    ofExcept ((Except.ok a).mapError k) = pure a :=
  rfl

@[simp]
theorem ofExcept_mapError_error (k : ε → δ) (error : ε) :
    ofExcept ((Except.error error : Except ε α).mapError k) = fail (k error) :=
  rfl

theorem events_bind (f : Act ε α) (g : α → Act ε β) (s : Session) :
    ((f >>= g) s).events = (f s).events ∨
      ∃ a, (f s).result = .ok a ∧
        ((f >>= g) s).events = (f s).events ++ (g a (f s).session).events := by
  cases h : (f s).result with
  | error error => exact .inl (by rw [bind_error h])
  | ok a => exact .inr ⟨a, rfl, by rw [bind_ok h]⟩

theorem write_step (piece : Bytes) (s : Session) :
    write piece s =
      if piece.isEmpty then ⟨.ok (), [], s⟩
      else ⟨(s.out.write piece).1.fault?.elim (.ok ()) .error,
        [.wrote piece (s.out.write piece).1], { s with out := (s.out.write piece).2 }⟩ := by
  unfold write
  split
  · rfl
  · cases h : (s.out.write piece).1 <;> simp [Act.bind, h, ofFault?, WriteReply.fault?, pure, fail]

theorem flush_step (s : Session) :
    flush s = ⟨s.out.flush.1.elim (.ok ()) .error, [.flushed s.out.flush.1],
      { s with out := s.out.flush.2 }⟩ := by
  unfold flush
  cases h : s.out.flush.1 <;> simp [Act.bind, h, ofFault?, pure, fail]

theorem complain_step (piece : Bytes) (s : Session) :
    complain piece s =
      if piece.isEmpty then ⟨.ok (), [], s⟩
      else ⟨(s.err.write piece).1.fault?.elim (.ok ()) .error,
        [.complained piece (s.err.write piece).1], { s with err := (s.err.write piece).2 }⟩ := by
  unfold complain
  split
  · rfl
  · cases h : (s.err.write piece).1 <;> simp [Act.bind, h, ofFault?, WriteReply.fault?, pure, fail]

/-- Made of requests that can be seen to do only what is of a kind. Replacing the world is not seen,
so it is allowed or forbidden apart from that. -/
inductive MadeOf (p : Event → Prop) (moves : Prop) : {ε α : Type} → Act ε α → Prop where
  | pure {ε α : Type} (a : α) : MadeOf p moves (Pure.pure a : Act ε α)
  | fail {ε α : Type} (error : ε) : MadeOf p moves (fail error : Act ε α)
  | happen {ε : Type} {event : Event} (hout : ¬ IsOutput event) (h : p event) :
      MadeOf p moves (happen event : Act ε Unit)
  | world {ε : Type} : MadeOf p moves (world : Act ε World)
  | setWorld {ε : Type} (h : moves) (w : World) : MadeOf p moves (setWorld w : Act ε Unit)
  | write (piece : Bytes) (h : ∀ reply, p (.wrote piece reply)) : MadeOf p moves (write piece)
  | flush (h : ∀ fault, p (.flushed fault)) : MadeOf p moves flush
  | complain (piece : Bytes) (h : ∀ reply, p (.complained piece reply)) :
      MadeOf p moves (complain piece)
  | bind {ε α β : Type} {f : Act ε α} {g : α → Act ε β} (first : MadeOf p moves f)
      (next : ∀ a, MadeOf p moves (g a)) : MadeOf p moves (f >>= g)
  | mapError {ε δ α : Type} {f : Act ε α} (k : ε → δ) (h : MadeOf p moves f) :
      MadeOf p moves (f.mapError k)
  | attempt {ε δ α : Type} {f : Act ε α} (h : MadeOf p moves f) :
      MadeOf p moves (f.attempt : Act δ (Except ε α))

namespace MadeOf

variable {f : Act ε α} {moves : Prop}

theorem ofExcept (outcome : Except ε α) : MadeOf p moves (ofExcept outcome) := by
  cases outcome with
  | ok value => exact .pure value
  | error error => exact .fail error

theorem mono {q : Event → Prop} {moves' : Prop} (h : MadeOf p moves f) (hpq : ∀ e, p e → q e)
    (hm : moves → moves') : MadeOf q moves' f := by
  induction h with
  | pure a => exact .pure a
  | fail error => exact .fail error
  | happen hout h => exact .happen hout (hpq _ h)
  | world => exact .world
  | setWorld h w => exact .setWorld (hm h) w
  | write piece h => exact .write piece fun reply => hpq _ (h reply)
  | flush h => exact .flush fun fault => hpq _ (h fault)
  | complain piece h => exact .complain piece fun reply => hpq _ (h reply)
  | bind _ _ first next => exact .bind first next
  | mapError k _ h => exact .mapError k h
  | attempt _ h => exact .attempt h

theorem events (h : MadeOf p moves f) (s : Session) : ∀ e ∈ (f s).events, p e := by
  have single {e event : Event} (hp : p event) (he : e ∈ [event]) : p e := by
    rw [List.mem_singleton.mp he]
    exact hp
  induction h generalizing s with
  | pure | fail | world | setWorld => exact fun e he => nomatch he
  | happen _ h => exact fun e he => single h he
  | write piece h =>
    intro e he
    rw [write_step] at he
    split at he
    · cases he
    · exact single (h _) he
  | flush h =>
    intro e he
    rw [flush_step] at he
    exact single (h _) he
  | complain piece h =>
    intro e he
    rw [complain_step] at he
    split at he
    · cases he
    · exact single (h _) he
  | @bind _ _ _ f g _ _ first next =>
    intro e he
    rcases events_bind f g s with hfirst | ⟨a, _, hboth⟩
    · exact first s e (hfirst ▸ he)
    · rcases List.mem_append.mp (hboth ▸ he) with he | he
      · exact first s e he
      · exact next a _ e he
  | mapError k _ h | attempt _ h => exact h s

/-- What single requests keep of a session, acts keep. -/
theorem keeps {P : Session → Prop} (h : MadeOf p moves f)
    (hworld : moves → ∀ s w, P s → P { s with world := w })
    (hwrite : ∀ s piece, (∀ reply, p (.wrote piece reply)) → P s →
      P { s with out := (s.out.write piece).2 })
    (hflush : ∀ s, (∀ fault, p (.flushed fault)) → P s → P { s with out := s.out.flush.2 })
    (hcomplain : ∀ s piece, (∀ reply, p (.complained piece reply)) → P s →
      P { s with err := (s.err.write piece).2 })
    {s : Session} (hs : P s) : P (f s).session := by
  induction h generalizing s with
  | pure | fail | happen | world => exact hs
  | setWorld h w => exact hworld h s w hs
  | write piece h =>
    rw [write_step]
    split
    · exact hs
    · exact hwrite s piece h hs
  | flush h =>
    rw [flush_step]
    exact hflush s h hs
  | complain piece h =>
    rw [complain_step]
    split
    · exact hs
    · exact hcomplain s piece h hs
  | @bind _ _ _ f g _ _ first next =>
    cases hr : (f s).result with
    | error error =>
      rw [bind_error hr]
      exact first hs
    | ok a =>
      rw [bind_ok hr]
      exact next a (first hs)
  | mapError k _ h | attempt _ h => exact h hs

theorem keeps_out {P : Channel → Prop} (h : MadeOf p moves f)
    (hw : ∀ c piece, P c → P (c.write piece).2) (hf : ∀ c, P c → P c.flush.2) {s : Session}
    (hs : P s.out) : P (f s).session.out :=
  h.keeps (P := (P ·.out)) (fun _ _ _ hs => hs) (fun _ piece _ hs => hw _ piece hs)
    (fun _ _ hs => hf _ hs) (fun _ _ _ hs => hs) hs

theorem keeps_err {P : Channel → Prop} (h : MadeOf p moves f)
    (hw : ∀ c piece, P c → P (c.write piece).2) {s : Session} (hs : P s.err) :
    P (f s).session.err :=
  h.keeps (P := (P ·.err)) (fun _ _ _ hs => hs) (fun _ _ _ hs => hs) (fun _ _ hs => hs)
    (fun _ piece _ hs => hw _ piece hs) hs

theorem world_eq (h : MadeOf p False f) (s : Session) : (f s).session.world = s.world :=
  h.keeps (P := (·.world = s.world)) (fun h => h.elim) (fun _ _ _ hs => hs) (fun _ _ hs => hs)
    (fun _ _ _ hs => hs) rfl

theorem session_eq (h : MadeOf p False f) (hout : ∀ e, p e → ¬ IsOutput e)
    (herr : ∀ e, p e → ¬ IsComplaint e) (s : Session) : (f s).session = s :=
  h.keeps (P := (· = s)) (fun h => h.elim) (fun _ _ h _ => absurd trivial (hout _ (h .whole)))
    (fun _ h _ => absurd trivial (hout _ (h none)))
    (fun _ _ h _ => absurd trivial (herr _ (h .whole))) rfl

end MadeOf
end Act

open Act (MadeOf)

theorem var_madeOf {p : Event → Prop} (name : Bytes) : MadeOf p False (Environment.var name) := by
  refine .bind .world fun w => ?_
  split
  · exact .pure _
  · exact .fail _

theorem homeDir_madeOf {p : Event → Prop} : MadeOf p False Environment.homeDir := by
  refine .bind .world fun w => ?_
  split
  · exact .pure _
  · exact .fail _

theorem bind_changes (name value : Bytes) :
    MadeOf IsChange True (Environment.bind name value) :=
  .bind .world fun _ => .bind (.setWorld trivial _) fun _ => .happen id trivial

theorem setVar_changes (name value : Bytes) :
    MadeOf IsChange True (Environment.setVar name value) := by
  unfold Environment.setVar
  split
  · exact .fail _
  · split
    · exact .fail _
    · exact bind_changes name value

theorem changeDir_changes (path : Bytes) :
    MadeOf IsChange True (Environment.changeDir path) := by
  refine .bind .world fun w => .bind (.ofExcept _) fun moved => ?_
  refine .bind (.setWorld trivial _) fun _ => ?_
  refine .bind (.bind .world fun _ => .ofExcept _) fun current => ?_
  exact .bind (bind_changes _ _) fun _ => .pure _

theorem writeEach_offers (pieces : List Bytes) :
    MadeOf IsOffer False (Builtin.writeEach pieces) := by
  refine .mapError _ ?_
  induction pieces with
  | nil => exact .pure _
  | cons piece pieces ih => exact .bind (.write piece fun _ => trivial) fun _ => ih

def goTo (path : Bytes) : Act EnvError Status := do
  let current ← Environment.changeDir path
  Act.log (.moved (Utf8.lossy current))
  pure .proceed

theorem goTo_changes (path : Bytes) : MadeOf IsChange True (goTo path) :=
  .bind (changeDir_changes path) fun _ => .bind (.happen id trivial) fun _ => .pure _

theorem runCd_changes (list : TokenList) : MadeOf IsChange True (Builtin.runCd list) := by
  refine .mapError _ ?_
  split
  · exact .bind (.pure _) goTo_changes
  · exact .bind (homeDir_madeOf.mono (fun _ => id) False.elim) goTo_changes

theorem runGet_offers (list : TokenList) : MadeOf IsOffer False (Builtin.runGet list) := by
  unfold Builtin.runGet
  split
  · exact .bind (writeEach_offers _) fun _ => .pure _
  · refine .bind (.attempt (var_madeOf _)) fun found => ?_
    cases found with
    | ok value => exact .bind (writeEach_offers _) fun _ => .pure _
    | error _ => exact .bind (writeEach_offers _) fun _ => .pure _

theorem runSet_changes {list : TokenList} {name : Bytes} (h : list.get? 1 = some name) :
    MadeOf IsChange True (Builtin.runSet list) := by
  unfold Builtin.runSet
  rw [h]
  exact .bind (.mapError _ (setVar_changes _ _)) fun _ => .pure _

theorem runSet_changes_or_offers (list : TokenList) :
    MadeOf IsChange True (Builtin.runSet list) ∨ MadeOf IsOffer False (Builtin.runSet list) := by
  cases h : list.get? 1 with
  | some name => exact .inl (runSet_changes h)
  | none =>
    unfold Builtin.runSet
    rw [h]
    exact .inr (.bind (writeEach_offers _) fun _ => .pure _)

theorem builtin_offers {builtin : Builtin} (hcd : builtin ≠ .cd) (hset : builtin ≠ .set)
    (list : TokenList) : MadeOf IsOffer False (builtin.run list) := by
  cases builtin with
  | cd => exact absurd rfl hcd
  | set => exact absurd rfl hset
  | exit => exact .pure _
  | pid => exact .bind .world fun _ => .bind (writeEach_offers _) fun _ => .pure _
  | ppid => exact .bind .world fun _ => .bind (writeEach_offers _) fun _ => .pure _
  | pwd =>
    exact .bind (.mapError _ (var_madeOf _)) fun _ => .bind (writeEach_offers _) fun _ => .pure _
  | get => exact runGet_offers list

theorem builtin_changes_or_offers (builtin : Builtin) (list : TokenList) :
    MadeOf IsChange True (builtin.run list) ∨ MadeOf IsOffer False (builtin.run list) := by
  by_cases hcd : builtin = .cd
  · subst hcd
    exact .inl (runCd_changes list)
  · by_cases hset : builtin = .set
    · subst hset
      exact runSet_changes_or_offers list
    · exact .inr (builtin_offers hcd hset list)

theorem builtin_starts_nothing (builtin : Builtin) (list : TokenList) :
    MadeOf (¬ IsStart ·) True (builtin.run list) := by
  rcases builtin_changes_or_offers builtin list with h | h
  · exact h.mono (fun _ he => he.not_start) id
  · exact h.mono (fun _ he => he.isOutput.not_start) False.elim

theorem awaitEnd_madeOf (pid : Nat) (activity : List Activity) :
    MadeOf IsOfChild False (awaitEnd pid activity) := by
  induction activity with
  | nil => exact .fail _
  | cons first later ih =>
    cases first with
    | wrote outlet bytes => exact .bind (.happen id trivial) fun _ => ih
    | interrupted => exact ih
    | changed word =>
      unfold awaitEnd
      split
      · exact .bind (.happen id trivial) fun _ => .pure _
      · split
        · exact .bind (.happen id trivial) fun _ => .pure _
        · split
          · exact .bind (.happen id trivial) fun _ => ih
          · exact ih

theorem launch_quiet (list : TokenList) : MadeOf IsQuiet True (launch list) := by
  unfold launch
  split
  · exact .pure _
  · refine .bind (.happen id trivial) fun _ => .bind .world fun w => ?_
    split
    · exact .fail _
    · exact .bind (.happen id trivial) fun _ => .bind (.setWorld trivial _) fun _ =>
        .bind (.happen id trivial) fun _ =>
          (awaitEnd_madeOf _ _).mono (fun _ he => he.isLife.isQuiet) False.elim

def afterFlush (name : Bytes) (list : TokenList) : Act CommandError Status := do
  Act.log (.external (Utf8.lossy name))
  let outcome ← (launch list).mapError .process
  if !outcome.success then Act.log (.finished (Utf8.lossy name) outcome)
  pure .proceed

theorem runExternal_eq (name : Bytes) (list : TokenList) :
    runExternal name list = Act.flush.mapError .io >>= fun _ => afterFlush name list :=
  rfl

theorem afterFlush_quiet (name : Bytes) (list : TokenList) :
    MadeOf IsQuiet True (afterFlush name list) := by
  refine .bind (.happen id trivial) fun _ =>
    .bind (.mapError _ (launch_quiet list)) fun outcome => ?_
  split
  · exact .bind (.happen id trivial) fun _ => .pure _
  · exact .pure _

theorem execute_madeOf (list : TokenList) : MadeOf IsWork True (execute list) := by
  unfold execute
  split
  · exact .pure _
  · split
    · refine .bind (.happen id (.inr trivial)) fun _ => ?_
      rcases builtin_changes_or_offers _ list with h | h
      · exact h.mono (fun _ he => .inr he.isQuiet) id
      · exact h.mono (fun _ he => .inl he.isOutput) False.elim
    · rw [runExternal_eq]
      have hflush : MadeOf IsWork True Act.flush := .flush fun _ => .inl trivial
      exact .bind (.mapError _ hflush) fun _ => (afterFlush_quiet _ list).mono (fun _ => .inr) id

section
variable {ε : Type} (shell : Shell)

theorem report_madeOf (command : String) (error : CommandError) :
    MadeOf IsReport False (shell.report command error : Act ε Unit) := by
  have hflush : MadeOf IsReport False Act.flush := .flush fun _ => trivial
  refine .bind (.attempt hflush) fun _ => .bind (.attempt ?_) fun _ => .pure _
  exact .bind (.complain _ fun _ => trivial) fun _ => .complain _ fun _ => trivial

theorem executeLine_madeOf (line : Bytes) :
    MadeOf (¬ IsLine ·) True (shell.executeLine line : Act ε Status) := by
  refine .bind (.attempt ((execute_madeOf _).mono (fun _ => IsWork.not_line) id)) fun outcome => ?_
  cases outcome with
  | ok status => exact .pure _
  | error error =>
    have hreport := report_madeOf (ε := ε) shell (Utf8.lossy ((tokenize line).command?.getD []))
      error
    exact .bind (hreport.mono (fun _ => IsReport.not_line) False.elim) fun _ => .pure _

end

/-- What the loop's own acts have and each line has, the whole run has, if it is handed on from one
act to the next. -/
theorem run_has (shell : Shell) {P : ∀ {α : Type}, Act ShellError α → Prop}
    (hown : ∀ {α : Type} {act : Act ShellError α}, MadeOf IsOwn False act → P act)
    (hbind : ∀ {α β : Type} {f : Act ShellError α} {g : α → Act ShellError β},
      P f → (∀ a, P (g a)) → P (f >>= g))
    (hline : ∀ line, P (shell.executeLine line : Act ShellError Status)) (source : Source) :
    P (shell.run source) := by
  have hout (bytes : Bytes) : MadeOf IsOwn False (Shell.writeOut bytes) :=
    .mapError _ (.write bytes fun _ => trivial)
  have hflush : MadeOf IsOwn False Shell.flushOut := .mapError _ (.flush fun _ => trivial)
  -- the source gets smaller with every line, as in the recursion of the loop itself
  induction hn : source.size using Nat.strongRecOn generalizing source with
  | ind n ih =>
    rw [shell.run_eq]
    refine hbind (hown (hout _)) fun _ => hbind (hown hflush) fun _ => ?_
    split
    · exact hown (.fail _)
    · exact hown (.bind (.happen id trivial) fun _ => .bind (hout _) fun _ =>
        .bind hflush fun _ => .pure _)
    · next line hread =>
      refine hbind (hown (.happen id trivial)) fun _ => hbind (hline line) fun status => ?_
      cases status with
      | exit code => exact hown (.bind hflush fun _ => .pure _)
      | proceed => exact ih _ (hn ▸ Source.size_readLine_lt hread) _ rfl

theorem run_madeOf (shell : Shell) (source : Source) :
    MadeOf (fun _ => True) True (shell.run source) :=
  run_has shell (P := MadeOf (fun _ => True) True)
    (fun hown => hown.mono (fun _ _ => trivial) False.elim) .bind
    (fun line => (executeLine_madeOf shell line).mono (fun _ _ => trivial) id) source

end LineShell
