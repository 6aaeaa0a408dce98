import LineShell.Proofs.CommandLoop

/-!
# Errors and their causes

An error names at most one cause, and after two steps at most there is none left to name. What an
error tells ends with what its cause tells, so nothing is lost on the way up: whoever reads the last
message has read the first one too.
-/
namespace LineShell

/-- An error of the program, or a fault of the system that it comes from. -/
inductive Failure where
  | argument (error : ArgumentError)
  | env (error : EnvError)
  | process (error : ProcessError)
  | command (error : CommandError)
  | shell (error : ShellError)
  | system (fault : Fault)
  deriving DecidableEq, Repr

def EndsWith (text last : String) : Prop := ∃ front, text = front ++ last

namespace Failure

def message : Failure → String
  | argument error => error.message
  | env error => error.message
  | process error => error.message
  | command error => error.message
  | shell error => error.message
  | system fault => fault.message

def sources : Failure → List String
  | argument error => error.sources
  | env error => error.sources
  | process error => error.sources
  | command error => error.sources
  | shell error => error.sources
  | system _ => []

/-- What an error names as its cause. A fault of the system names none. -/
def cause? : Failure → Option Failure
  | env (.changeDir _ fault) | env (.io fault) => some (system fault)
  | process (.spawn _ fault) | process (.wait fault) => some (system fault)
  | command (.env error) => some (env error)
  | command (.process error) => some (process error)
  | command (.io fault) => some (system fault)
  | shell (.read fault) | shell (.write fault) => some (system fault)
  | argument _ | env _ | process _ | system _ => none

/-- The cause of an error, the cause of that one, and so on until none is named. -/
inductive Causes : Failure → List Failure → Prop where
  | none {f : Failure} (h : f.cause? = none) : Causes f []
  | next {f g : Failure} {later : List Failure} (h : f.cause? = some g) (rest : Causes g later) :
      Causes f (g :: later)

/-- What is promised of an error with these causes. -/
structure Explained (f : Failure) (causes : List Failure) : Prop where
  named : f.Causes causes
  only : ∀ other, f.Causes other → other = causes
  short : causes.length ≤ 2
  told : f.sources = causes.map message
  ends : (f.message :: f.sources).IsChain EndsWith

/-- An error and the cause that it names: nothing that the one tells is missing in the other. -/
structure Link (f g : Failure) : Prop where
  ends : EndsWith f.message g.message
  sources : f.sources = g.message :: g.sources

def depth : Failure → Nat
  | system _ => 0
  | argument _ | env _ | process _ | shell _ => 1
  | command _ => 2

end Failure

theorem EndsWith.refl (text : String) : EndsWith text text := ⟨"", String.empty_append.symm⟩

theorem EndsWith.append (front last : String) : EndsWith (front ++ last) last := ⟨front, rfl⟩

theorem EndsWith.trans {text middle last : String} (h : EndsWith text middle)
    (h' : EndsWith middle last) : EndsWith text last := by
  obtain ⟨front, rfl⟩ := h
  obtain ⟨between, rfl⟩ := h'
  exact ⟨front ++ between, String.append_assoc.symm⟩

namespace Failure

variable {f g : Failure} {causes other : List Failure}

theorem link_of_cause (h : f.cause? = some g) : Link f g := by
  cases f with
  | argument error => cases h
  | env error =>
    cases error with
    | changeDir path fault => cases h; exact ⟨.append _ _, rfl⟩
    | io fault => cases h; exact ⟨.append _ _, rfl⟩
    | noHome | unset | badName | badValue => cases h
  | process error =>
    cases error with
    | spawn command fault => cases h; exact ⟨.append _ _, rfl⟩
    | wait fault => cases h; exact ⟨.append _ _, rfl⟩
    | notFound | denied => cases h
  | command error =>
    cases error with
    | env error => cases h; exact ⟨.refl _, rfl⟩
    | process error => cases h; exact ⟨.refl _, rfl⟩
    | io fault => cases h; exact ⟨.append _ _, rfl⟩
  | shell error =>
    cases error with
    | read fault => cases h; exact ⟨.append _ _, rfl⟩
    | write fault => cases h; exact ⟨.append _ _, rfl⟩
  | system fault => cases h

theorem sources_of_no_cause (h : f.cause? = none) : f.sources = [] := by
  cases f with
  | argument | system => rfl
  | env error =>
    cases error with
    | changeDir | io => cases h
    | noHome | unset | badName | badValue => rfl
  | process error =>
    cases error with
    | spawn | wait => cases h
    | notFound | denied => rfl
  | command error => cases error <;> cases h
  | shell error => cases error <;> cases h

theorem depth_lt_of_cause (h : f.cause? = some g) : g.depth < f.depth := by
  cases f with
  | argument | system => cases h
  | env error => cases error <;> cases h <;> simp [depth]
  | process error => cases error <;> cases h <;> simp [depth]
  | command error => cases error <;> cases h <;> simp [depth]
  | shell error => cases error <;> cases h <;> simp [depth]

theorem depth_le (f : Failure) : f.depth ≤ 2 := by
  cases f <;> simp [depth]

theorem causes_exist (f : Failure) : ∃ causes, f.Causes causes ∧ causes.length ≤ f.depth := by
  induction hn : f.depth using Nat.strongRecOn generalizing f with
  | ind n ih =>
    cases h : f.cause? with
    | none => exact ⟨[], .none h, Nat.zero_le n⟩
    | some g =>
      have hlt := hn ▸ depth_lt_of_cause h
      obtain ⟨later, hlater, hlength⟩ := ih _ hlt g rfl
      exact ⟨g :: later, .next h hlater, Nat.succ_le_of_lt (Nat.lt_of_le_of_lt hlength hlt)⟩

namespace Causes

theorem unique (h : f.Causes causes) (h' : f.Causes other) : other = causes := by
  induction h generalizing other with
  | none hnone =>
    cases h' with
    | none _ => rfl
    | next hsome _ => cases hnone.symm.trans hsome
  | next hsome _ ih =>
    cases h' with
    | none hnone => cases hsome.symm.trans hnone
    | next hsome' later =>
      cases hsome.symm.trans hsome'
      rw [ih later]

theorem sources_eq (h : f.Causes causes) : f.sources = causes.map message := by
  induction h with
  | none hnone => exact sources_of_no_cause hnone
  | next hsome _ ih => rw [(link_of_cause hsome).sources, ih, List.map_cons]

theorem isChain (h : f.Causes causes) : (f.message :: f.sources).IsChain EndsWith := by
  induction h with
  | none hnone =>
    rw [sources_of_no_cause hnone]
    exact .singleton _
  | next hsome _ ih =>
    have hlink := link_of_cause hsome
    rw [hlink.sources]
    exact .cons_cons hlink.ends ih

theorem endsWith (h : f.Causes causes) (hg : g ∈ causes) : EndsWith f.message g.message := by
  induction h with
  | none => cases hg
  | next hsome _ ih =>
    have hends := (link_of_cause hsome).ends
    rcases List.mem_cons.mp hg with rfl | hg
    · exact hends
    · exact hends.trans (ih hg)

end Causes

theorem explained (f : Failure) : ∃ causes, f.Explained causes := by
  obtain ⟨causes, h, hlength⟩ := causes_exist f
  have hshort := Nat.le_trans hlength f.depth_le
  exact ⟨causes, h, fun _ h' => h.unique h', hshort, h.sources_eq, h.isChain⟩

end Failure

theorem Highlighter.apply_around (highlighter : Highlighter) :
    ∃ before after, ∀ text, highlighter.apply text = before ++ text ++ after := by
  cases highlighter with
  | plain => exact ⟨"", "", fun text => by simp [apply]⟩
  | boldRed => exact ⟨"\x1b[31m\x1b[1m", "\x1b[0m", fun text => rfl⟩

theorem Bytes.ofString_infix_of_endsWith {text last : String} (h : EndsWith text last)
    (before after : String) :
    Bytes.ofString last <:+: Bytes.ofString (before ++ text ++ after) := by
  obtain ⟨front, rfl⟩ := h
  refine ⟨ofString before ++ ofString front, ofString after, ?_⟩
  simp [ofString_append]

theorem complaints_of_failed {ε : Type} (shell : Shell) {line : Bytes} {s : Session}
    {error : CommandError} {causes : List Failure} {cause : Failure}
    (hfails : (execute (tokenize line) s).result = .error error)
    (hcauses : (Failure.command error).Causes causes) (hcause : cause ∈ causes) :
    ∃ piece ∈ complaints (shell.executeLine line s : Step ε Status).events,
      Bytes.ofString cause.message <:+: piece := by
  obtain ⟨before, after, haround⟩ := shell.highlighter.apply_around
  have hends : EndsWith error.message cause.message := hcauses.endsWith hcause
  rw [executeLine_of_error shell hfails]
  dsimp only
  refine ⟨_, ?_, Bytes.ofString_infix_of_endsWith
    ((EndsWith.append (Utf8.lossy ((tokenize line).command?.getD []) ++ ": ") _).trans hends)
    before after⟩
  rw [← haround, complaints, List.filterMap_append]
  apply List.mem_append_right
  have hreport := complaints_report (ε := ε) shell (Utf8.lossy ((tokenize line).command?.getD []))
    error (execute (tokenize line) s).session
  change _ ∈ complaints _
  rw [hreport]
  exact List.mem_cons_self

/-- Every error has its causes, and only these; there are at most two, and each message ends with
the next one. So what is told of a command that fails has in it what each cause tells, down to the
fault of the system if one is kept. An error of a command is the error that it wraps, word for word,
and names that as its cause; to a fault it is all the same which way it is wrapped. -/
theorem no_cause_is_lost (shell : Shell) (s : Session) :
    (∀ f : Failure, ∃ causes, f.Explained causes) ∧
    (∀ f g : Failure, f.cause? = some g → EndsWith f.message g.message) ∧
    (∀ line error causes, (execute (tokenize line) s).result = .error error →
      (Failure.command error).Causes causes → ∀ cause ∈ causes,
        ∃ piece ∈ complaints (shell.executeLine line s : Step ShellError Status).events,
          Bytes.ofString cause.message <:+: piece) ∧
    (∀ error : EnvError, (CommandError.env error).message = error.message ∧
      (Failure.command (.env error)).cause? = some (.env error)) ∧
    (∀ error : ProcessError, (CommandError.process error).message = error.message ∧
      (Failure.command (.process error)).cause? = some (.process error)) ∧
    ∀ fault, (CommandError.io fault).message = (CommandError.env (.io fault)).message := by
  refine ⟨Failure.explained, ?_, ?_, ?_, ?_, ?_⟩
  · intro f g h
    exact (Failure.link_of_cause h).ends
  · intro line error causes hfails hcauses cause hcause
    exact complaints_of_failed shell hfails hcauses hcause
  · intro error
    exact ⟨rfl, rfl⟩
  · intro error
    exact ⟨rfl, rfl⟩
  · intro fault
    rfl

/-- A move that is refused is told of in colour, with a path that is not text. -/
theorem no_cause_is_lost_in_colour :
    let s : Session := ⟨Machine.world [("PATH", "/bin")], .accepting, .accepting⟩
    let shell := Shell.mk "$ " .boldRed
    let line := Bytes.ofString "cd no" ++ [255, 10]
    let error : EnvError := .changeDir (Bytes.ofString "no" ++ [255]) .noEntry
    (execute (tokenize line) s).result = .error (.env error) ∧
    (Failure.command (.env error)).Causes [.env error, .system .noEntry] ∧
    ∃ piece ∈ complaints (shell.executeLine line s : Step ShellError Status).events,
      Bytes.ofString "No such file or directory (os error 2)" <:+: piece := by
  intro s shell line error
  have hfails : (execute (tokenize line) s).result = .error (.env error) := by decide +kernel
  have hcauses : (Failure.command (.env error)).Causes [.env error, .system .noEntry] :=
    .next rfl (.next rfl (.none rfl))
  obtain ⟨_, _, htold, _⟩ := no_cause_is_lost shell s
  have hpiece := htold line _ _ hfails hcauses (.system .noEntry) (by simp)
  have hmessage : (Failure.system .noEntry).message = "No such file or directory (os error 2)" := by
    decide +kernel
  rw [hmessage] at hpiece
  exact ⟨hfails, hcauses, hpiece⟩

end LineShell
