import LineShell.Proofs.CommandLoop

/-!
# How the loop ends

Whatever its output channel does, the loop ends in one of four ways: the input is over, a line asks
to exit, a read fails, or one of the loop's own writes or flushes does. Lines that do not ask to
exit change the session, and in no other way do they bear on the ending.
-/
namespace LineShell

open Bytes (newline)
open Act (MadeOf)
open Event (IsOutput)

inductive Ending where
  | endOfInput
  | exitLine
  | readFailed (fault : Fault)
  | writeFailed (fault : Fault)
  deriving DecidableEq, Repr

def Ending.result : Ending → Except ShellError Nat
  | endOfInput => .ok 0
  | exitLine => .ok 1
  | readFailed fault => .error (.read fault)
  | writeFailed fault => .error (.write fault)

theorem Ending.result_injective {ending other : Ending} (h : ending.result = other.result) :
    ending = other := by
  cases ending <;> cases other <;> cases h <;> rfl

namespace Shell

def emit (bytes : Bytes) : Act ShellError Unit := do
  writeOut bytes
  flushOut

def prompted (shell : Shell) (s : Session) : Step ShellError Unit :=
  emit (Bytes.ofString shell.prompt) s

def afterLine (shell : Shell) (line : Bytes) (s : Session) : Session :=
  (shell.executeLine line s : Step ShellError Status).session

/-- Reading a source from a session on, the loop executes lines, one after another, and ends so in
a session. Each turn begins with the prompt. -/
inductive Ends (shell : Shell) : Source → Session → List Bytes → Ending → Session → Prop where
  | unprompted {source : Source} {s : Session} {fault : Fault}
      (refused : (shell.prompted s).result = .error (.write fault)) :
      Ends shell source s [] (.writeFailed fault) (shell.prompted s).session
  | unread {source : Source} {s : Session} {fault : Fault}
      (asked : (shell.prompted s).result = .ok ())
      (read : source.readLine.1 = .error fault) :
      Ends shell source s [] (.readFailed fault) (shell.prompted s).session
  | atEnd {source : Source} {s : Session}
      (asked : (shell.prompted s).result = .ok ()) (read : source.readLine.1 = .ok none)
      (closed : (emit [newline] (shell.prompted s).session).result = .ok ()) :
      Ends shell source s [] .endOfInput (emit [newline] (shell.prompted s).session).session
  | unclosed {source : Source} {s : Session} {fault : Fault}
      (asked : (shell.prompted s).result = .ok ()) (read : source.readLine.1 = .ok none)
      (refused : (emit [newline] (shell.prompted s).session).result = .error (.write fault)) :
      Ends shell source s [] (.writeFailed fault)
        (emit [newline] (shell.prompted s).session).session
  | left {source : Source} {s : Session} {line : Bytes}
      (asked : (shell.prompted s).result = .ok ()) (read : source.readLine.1 = .ok (some line))
      (exits : asksToExit line = true)
      (flushed : (flushOut (shell.afterLine line (shell.prompted s).session)).result = .ok ()) :
      Ends shell source s [line] .exitLine
        (flushOut (shell.afterLine line (shell.prompted s).session)).session
  | unflushed {source : Source} {s : Session} {line : Bytes} {fault : Fault}
      (asked : (shell.prompted s).result = .ok ()) (read : source.readLine.1 = .ok (some line))
      (exits : asksToExit line = true)
      (refused : (flushOut (shell.afterLine line (shell.prompted s).session)).result =
        .error (.write fault)) :
      Ends shell source s [line] (.writeFailed fault)
        (flushOut (shell.afterLine line (shell.prompted s).session)).session
  | next {source : Source} {s t : Session} {line : Bytes} {lines : List Bytes} {ending : Ending}
      (asked : (shell.prompted s).result = .ok ()) (read : source.readLine.1 = .ok (some line))
      (goesOn : asksToExit line = false)
      (later : Ends shell source.readLine.2 (shell.afterLine line (shell.prompted s).session) lines
        ending t) :
      Ends shell source s (line :: lines) ending t

end Shell

theorem Act.bind_bind {ε α β γ : Type} (f : Act ε α) (g : α → Act ε β) (h : β → Act ε γ) :
    (f >>= g >>= h) = f >>= fun a => g a >>= h := by
  funext s
  cases hf : (f s).result with
  | error error =>
    have hfirst := Act.bind_error (g := g) hf
    rw [Act.bind_error (congrArg Step.result hfirst), hfirst, Act.bind_error hf]
  | ok a =>
    have hfirst := Act.bind_ok (g := g) hf
    rw [Act.bind_ok hf]
    cases hg : (g a (f s).session).result with
    | error error =>
      rw [Act.bind_error (by rw [hfirst, hg]), hfirst, Act.bind_error hg]
    | ok b =>
      rw [Act.bind_ok (by rw [hfirst, hg]), hfirst, Act.bind_ok hg, List.append_assoc]

namespace Shell

variable (shell : Shell) {source : Source} {s : Session}

/-- What the loop does once the prompt is out. -/
def proceed (source : Source) : Act ShellError Nat :=
  match source.readLine.1 with
  | .error fault => Act.fail (.read fault)
  | .ok none => do
    Act.log .endOfInput
    emit [newline]
    pure 0
  | .ok (some line) => do
    Act.happen (.line line)
    match ← shell.executeLine line with
    | .exit code => do
      flushOut
      pure code
    | .proceed => shell.run source.readLine.2

theorem run_eq_proceed (source : Source) :
    shell.run source = emit (Bytes.ofString shell.prompt) >>= fun _ => shell.proceed source := by
  rw [run_eq]
  unfold proceed emit
  cases source.readLine.1 with
  | error fault => exact (Act.bind_bind _ _ _).symm
  | ok found =>
    cases found with
    | none => simp only [Act.bind_bind]
    | some line => exact (Act.bind_bind _ _ _).symm

theorem mapError_write_result (act : Act Fault Unit) (s : Session) :
    (act.mapError ShellError.write s).result = .ok () ∨
      ∃ fault, (act.mapError ShellError.write s).result = .error (.write fault) := by
  cases hact : act s with
  | mk result events t =>
    cases result with
    | ok _ => exact .inl (congrArg Step.result (Act.mapError_of_ok hact))
    | error fault => exact .inr ⟨fault, congrArg Step.result (Act.mapError_of_error hact)⟩

theorem flushOut_result (s : Session) :
    (flushOut s).result = .ok () ∨ ∃ fault, (flushOut s).result = .error (.write fault) :=
  mapError_write_result Act.flush s

theorem emit_result (bytes : Bytes) (s : Session) :
    (emit bytes s).result = .ok () ∨ ∃ fault, (emit bytes s).result = .error (.write fault) := by
  have hwrite : (writeOut bytes s).result = .ok () ∨
      ∃ fault, (writeOut bytes s).result = .error (.write fault) :=
    mapError_write_result (Act.write bytes) s
  rcases hwrite with hw | ⟨fault, hw⟩
  · have hemit : emit bytes s = _ := Act.bind_ok hw
    rw [hemit]
    exact flushOut_result _
  · have hemit : emit bytes s = _ := Act.bind_error hw
    exact .inr ⟨fault, congrArg Step.result hemit⟩

theorem emit_madeOf (bytes : Bytes) : MadeOf IsOutput False (emit bytes) :=
  .bind (.mapError _ (.write bytes fun _ => trivial)) fun _ =>
    .mapError _ (.flush fun _ => trivial)

theorem flushOut_madeOf : MadeOf IsOutput False flushOut := .mapError _ (.flush fun _ => trivial)

theorem executed_of_output {ε α : Type} {act : Act ε α} (h : MadeOf IsOutput False act)
    (s : Session) : executed (act s).events = [] := by
  apply executed_eq_nil
  intro e he
  have hout := h.events s e he
  cases e with
  | line => exact hout.elim
  | _ => exact id

theorem run_of_unprompted {error : ShellError}
    (refused : (shell.prompted s).result = .error error) :
    shell.run source s = ⟨.error error, (shell.prompted s).events, (shell.prompted s).session⟩ := by
  rw [run_eq_proceed]
  exact Act.bind_error refused

theorem run_of_asked (asked : (shell.prompted s).result = .ok ()) :
    shell.run source s =
      let rest := shell.proceed source (shell.prompted s).session
      ⟨rest.result, (shell.prompted s).events ++ rest.events, rest.session⟩ := by
  rw [run_eq_proceed]
  exact Act.bind_ok asked

theorem executed_of_asked (asked : (shell.prompted s).result = .ok ()) :
    executed (shell.run source s).events =
      executed (shell.proceed source (shell.prompted s).session).events := by
  rw [run_of_asked shell asked, executed_append]
  exact congrArg (· ++ _) (executed_of_output (emit_madeOf _) s)

theorem proceed_of_unread {fault : Fault} (read : source.readLine.1 = .error fault) :
    shell.proceed source s = ⟨.error (.read fault), [], s⟩ := by
  rw [proceed, read]
  rfl

theorem proceed_of_end (read : source.readLine.1 = .ok none) :
    shell.proceed source s =
      ⟨(emit [newline] s).result.map fun _ => 0, .record .endOfInput :: (emit [newline] s).events,
        (emit [newline] s).session⟩ := by
  rw [proceed, read]
  dsimp only
  rw [Act.bind_ok rfl]
  dsimp only [Act.log, Act.happen]
  rcases emit_result [newline] s with h | ⟨fault, h⟩
  · rw [Act.bind_ok h, h]
    simp [Pure.pure, Act.pure, Except.map]
  · rw [Act.bind_error h, h]
    rfl

/-- What comes once a line is done: the last flush, or the loop from the next prompt on. -/
def afterwards (line : Bytes) (source : Source) : Act ShellError Nat :=
  if asksToExit line then do
    flushOut
    pure 1
  else shell.run source.readLine.2

theorem proceed_of_line {line : Bytes} (read : source.readLine.1 = .ok (some line)) :
    shell.proceed source s =
      let turn : Step ShellError Status := shell.executeLine line s
      let rest := shell.afterwards line source (shell.afterLine line s)
      ⟨rest.result, .line line :: (turn.events ++ rest.events), rest.session⟩ := by
  rw [proceed, read]
  dsimp only
  rw [Act.bind_ok rfl]
  dsimp only [Act.happen]
  rw [Act.bind_ok (executeLine_result shell line s)]
  unfold afterwards
  by_cases hexit : asksToExit line = true
  · simp only [hexit, if_true]
    rfl
  · simp only [hexit]
    rfl

theorem executed_of_line {line : Bytes} (asked : (shell.prompted s).result = .ok ())
    (read : source.readLine.1 = .ok (some line)) :
    executed (shell.run source s).events = line ::
      executed (shell.afterwards line source
        (shell.afterLine line (shell.prompted s).session)).events := by
  rw [executed_of_asked shell asked, proceed_of_line shell read]
  have hturn := executed_eq_nil
    (executeLine_not_line (ε := ShellError) shell line (shell.prompted s).session)
  change line :: executed (_ ++ _) = _
  rw [executed_append, hturn, List.nil_append]

theorem run_of_turn {line : Bytes} (asked : (shell.prompted s).result = .ok ())
    (read : source.readLine.1 = .ok (some line)) :
    let rest := shell.afterwards line source (shell.afterLine line (shell.prompted s).session)
    (shell.run source s).result = rest.result ∧ (shell.run source s).session = rest.session := by
  rw [run_of_asked shell asked, proceed_of_line shell read]
  exact ⟨rfl, rfl⟩

theorem run_of_input_end (asked : (shell.prompted s).result = .ok ())
    (read : source.readLine.1 = .ok none) :
    let closed := emit [newline] (shell.prompted s).session
    (shell.run source s).result = (closed.result.map fun _ => 0) ∧
      executed (shell.run source s).events = [] ∧
      (shell.run source s).session = closed.session := by
  intro closed
  have hlines : executed closed.events = [] := executed_of_output (emit_madeOf _) _
  refine ⟨?_, ?_, ?_⟩
  · rw [run_of_asked shell asked, proceed_of_end shell read]
  · rw [executed_of_asked shell asked, proceed_of_end shell read]
    exact hlines
  · rw [run_of_asked shell asked, proceed_of_end shell read]

theorem afterwards_of_exit {line : Bytes} (exits : asksToExit line = true) :
    shell.afterwards line source s =
      ⟨(flushOut s).result.map fun _ => 1, (flushOut s).events, (flushOut s).session⟩ := by
  unfold afterwards
  rw [if_pos exits]
  rcases flushOut_result s with h | ⟨fault, h⟩
  · rw [Act.bind_ok h, h]
    simp [Pure.pure, Act.pure, Except.map]
  · rw [Act.bind_error h, h]
    rfl

theorem afterwards_of_proceed {line : Bytes} (goesOn : asksToExit line = false) :
    shell.afterwards line source = shell.run source.readLine.2 := by
  unfold afterwards
  rw [goesOn]
  exact if_neg Bool.false_ne_true

variable {shell} {lines : List Bytes} {ending : Ending} {t : Session}

theorem Ends.run (h : shell.Ends source s lines ending t) :
    (shell.run source s).result = ending.result ∧ executed (shell.run source s).events = lines ∧
      (shell.run source s).session = t := by
  induction h with
  | unprompted refused =>
    rw [run_of_unprompted shell refused]
    exact ⟨rfl, executed_of_output (emit_madeOf _) _, rfl⟩
  | unread asked read =>
    refine ⟨?_, ?_, ?_⟩
    · rw [run_of_asked shell asked, proceed_of_unread shell read]
      rfl
    · rw [executed_of_asked shell asked, proceed_of_unread shell read]
      rfl
    · rw [run_of_asked shell asked, proceed_of_unread shell read]
  | atEnd asked read closed =>
    obtain ⟨hresult, hrest⟩ := run_of_input_end shell asked read
    rw [closed] at hresult
    exact ⟨hresult, hrest⟩
  | unclosed asked read refused =>
    obtain ⟨hresult, hrest⟩ := run_of_input_end shell asked read
    rw [refused] at hresult
    exact ⟨hresult, hrest⟩
  | left asked read exits flushed =>
    obtain ⟨hresult, hsession⟩ := run_of_turn shell asked read
    have hlines := executed_of_line shell asked read
    rw [afterwards_of_exit shell exits] at hresult hsession hlines
    rw [executed_of_output flushOut_madeOf] at hlines
    rw [flushed] at hresult
    exact ⟨hresult, hlines, hsession⟩
  | unflushed asked read exits refused =>
    obtain ⟨hresult, hsession⟩ := run_of_turn shell asked read
    have hlines := executed_of_line shell asked read
    rw [afterwards_of_exit shell exits] at hresult hsession hlines
    rw [executed_of_output flushOut_madeOf] at hlines
    rw [refused] at hresult
    exact ⟨hresult, hlines, hsession⟩
  | next asked read goesOn _ ih =>
    obtain ⟨hresult, hsession⟩ := run_of_turn shell asked read
    have hlines := executed_of_line shell asked read
    rw [afterwards_of_proceed shell goesOn] at hresult hsession hlines
    rw [ih.2.1] at hlines
    exact ⟨hresult.trans ih.1, hlines, hsession.trans ih.2.2⟩

theorem ends_exists (shell : Shell) (source : Source) (s : Session) :
    ∃ lines ending t, shell.Ends source s lines ending t := by
  induction hn : source.size using Nat.strongRecOn generalizing source s with
  | ind n ih =>
    rcases emit_result (Bytes.ofString shell.prompt) s with asked | ⟨fault, refused⟩
    case inr => exact ⟨_, _, _, .unprompted refused⟩
    cases read : source.readLine.1 with
    | error fault => exact ⟨_, _, _, .unread asked read⟩
    | ok found =>
      cases found with
      | none =>
        rcases emit_result [newline] (shell.prompted s).session with closed | ⟨fault, refused⟩
        · exact ⟨_, _, _, .atEnd asked read closed⟩
        · exact ⟨_, _, _, .unclosed asked read refused⟩
      | some line =>
        cases exits : asksToExit line with
        | true =>
          rcases flushOut_result (shell.afterLine line (shell.prompted s).session) with
            flushed | ⟨fault, refused⟩
          · exact ⟨_, _, _, .left asked read exits flushed⟩
          · exact ⟨_, _, _, .unflushed asked read exits refused⟩
        | false =>
          obtain ⟨lines, ending, t, later⟩ := ih _ (hn ▸ Source.size_readLine_lt read)
            source.readLine.2 (shell.afterLine line (shell.prompted s).session) rfl
          exact ⟨_, _, _, .next asked read exits later⟩

theorem Ends.unique {lines' : List Bytes} {ending' : Ending} {t' : Session}
    (h : shell.Ends source s lines ending t) (h' : shell.Ends source s lines' ending' t') :
    lines = lines' ∧ ending = ending' ∧ t = t' := by
  obtain ⟨hresult, hlines, hsession⟩ := h.run
  obtain ⟨hresult', hlines', hsession'⟩ := h'.run
  refine ⟨hlines.symm.trans hlines', ?_, hsession.symm.trans hsession'⟩
  exact Ending.result_injective (hresult.symm.trans hresult')

/-- What each of its lines keeps of the world, a run keeps. -/
theorem Ends.keeps {P : World → Prop} (h : shell.Ends source s lines ending t)
    (hline : ∀ line ∈ lines, ∀ u : Session, P u.world → P (shell.afterLine line u).world)
    (hs : P s.world) : P t.world := by
  have hemit (bytes : Bytes) {u : Session} (hu : P u.world) : P (emit bytes u).session.world :=
    (emit_madeOf bytes).world_eq u ▸ hu
  have hflush {u : Session} (hu : P u.world) : P (flushOut u).session.world :=
    flushOut_madeOf.world_eq u ▸ hu
  induction h with
  | unprompted | unread => exact hemit _ hs
  | atEnd | unclosed => exact hemit _ (hemit _ hs)
  | left | unflushed =>
    apply hflush
    apply hline _ List.mem_cons_self
    exact hemit _ hs
  | next _ _ _ _ ih =>
    apply ih
    · intro line hmem
      exact hline line (List.mem_cons_of_mem _ hmem)
    · apply hline _ List.mem_cons_self
      exact hemit _ hs

end Shell
end LineShell
