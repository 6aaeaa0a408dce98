import LineShell.Proofs.ActAgreement

/-!
# How commands begin and end

An external command asks for a flush first, and a flush that fails is all that happens. Whatever
else commands do, none of them but `exit` ends the loop.
-/
namespace LineShell

open Event (IsQuiet IsLine IsComplaint)

namespace Act

variable {ε δ α β : Type} {q : α → Prop} {r : β → Prop}

/-- From any session, what the act ends with has a property unless it fails. -/
def Brings (q : α → Prop) (act : Act ε α) : Prop := ∀ s a, (act s).result = .ok a → q a

theorem Brings.pure {a : α} (h : q a) : Brings q (Pure.pure a : Act ε α) := by
  intro s b hb
  cases hb
  exact h

theorem Brings.bind {f : Act ε α} {g : α → Act ε β} (hg : ∀ a, Brings r (g a)) :
    Brings r (f >>= g) := by
  intro s b hb
  cases h : (f s).result with
  | error error =>
    rw [bind_error h] at hb
    cases hb
  | ok a =>
    rw [bind_ok h] at hb
    exact hg a _ b hb

theorem Brings.mapError {act : Act ε α} (k : ε → δ) (h : Brings q act) :
    Brings q (act.mapError k) := by
  intro s a ha
  change ((act s).result.mapError k) = .ok a at ha
  cases hr : (act s).result with
  | error error =>
    rw [hr] at ha
    cases ha
  | ok b =>
    rw [hr] at ha
    cases ha
    exact h s a hr

end Act

open Act (Brings MadeOf)
open Bytes (newline)

theorem runExternal_of_flushed {s : Session} (h : s.out.flush.1 = none) (name : Bytes)
    (list : TokenList) :
    runExternal name list s =
      let rest := afterFlush name list { s with out := s.out.flush.2 }
      ⟨rest.result, .flushed none :: rest.events, rest.session⟩ := by
  have hflush : (Act.flush.mapError CommandError.io) s =
      ⟨.ok (), [.flushed none], { s with out := s.out.flush.2 }⟩ :=
    Act.mapError_of_ok (by simp [Act.flush_step, h])
  rw [runExternal_eq, Act.bind_ok (congrArg Step.result hflush), hflush]
  rfl

theorem runExternal_of_unflushed {s : Session} {fault : Fault} (h : s.out.flush.1 = some fault)
    (name : Bytes) (list : TokenList) :
    runExternal name list s =
      ⟨.error (.io fault), [.flushed (some fault)], { s with out := s.out.flush.2 }⟩ := by
  have hflush : (Act.flush.mapError CommandError.io) s =
      ⟨.error (.io fault), [.flushed (some fault)], { s with out := s.out.flush.2 }⟩ :=
    Act.mapError_of_error (by simp [Act.flush_step, h])
  rw [runExternal_eq, Act.bind_error (congrArg Step.result hflush), hflush]

/-- An external command flushes first, and what it does after that is quiet. -/
theorem runExternal_flushes_first (name : Bytes) (list : TokenList) (s : Session) :
    ∃ later, (runExternal name list s).events = .flushed s.out.flush.1 :: later ∧
      ∀ e ∈ later, IsQuiet e := by
  cases h : s.out.flush.1 with
  | some fault => exact ⟨[], by rw [runExternal_of_unflushed h], by simp⟩
  | none => exact ⟨_, by rw [runExternal_of_flushed h], (afterFlush_quiet name list).events _⟩

namespace Builtin

theorem name_injective {builtin other : Builtin}
    (h : Bytes.ofString builtin.name = Bytes.ofString other.name) : builtin = other := by
  cases builtin <;> cases other <;> first | rfl | exact absurd h (by decide)

theorem mem_all (builtin : Builtin) : builtin ∈ all := by
  cases builtin <;> decide

theorem find?_name_eq_some_iff {order : List Builtin} (h : ∀ builtin, builtin ∈ order)
    {name : Bytes} {builtin : Builtin} :
    order.find? (fun builtin => Bytes.ofString builtin.name = name) = some builtin ↔
      name = Bytes.ofString builtin.name := by
  constructor
  · intro hfind
    have hname := List.find?_some hfind
    exact (of_decide_eq_true hname).symm
  · rintro rfl
    cases hfind : order.find? fun other =>
        Bytes.ofString other.name = Bytes.ofString builtin.name with
    | none =>
      have hnot := List.find?_eq_none.mp hfind builtin (h builtin)
      exact absurd (decide_eq_true rfl) hnot
    | some other =>
      have hname := List.find?_some hfind
      rw [name_injective (of_decide_eq_true hname)]

theorem ofName?_eq_some_iff {name : Bytes} {builtin : Builtin} :
    ofName? name = some builtin ↔ name = Bytes.ofString builtin.name :=
  find?_name_eq_some_iff mem_all

end Builtin

section
variable {list : TokenList} {s : Session} {name : Bytes}

theorem execute_of_empty (h : list.command? = none) : execute list s = ⟨.ok .proceed, [], s⟩ := by
  simp only [execute, h]
  rfl

theorem execute_of_builtin {builtin : Builtin} (h : list.command? = some name)
    (hb : Builtin.ofName? name = some builtin) :
    execute list s =
      ⟨(builtin.run list s).result,
        .record (.builtin (Utf8.lossy name)) :: (builtin.run list s).events,
        (builtin.run list s).session⟩ := by
  simp only [execute, h, hb]
  exact Act.bind_ok rfl

theorem execute_of_external (h : list.command? = some name) (hb : Builtin.ofName? name = none) :
    execute list s = runExternal name list s := by
  simp only [execute, h, hb]

end

theorem executeLine_not_line {ε : Type} (shell : Shell) (line : Bytes) (s : Session) :
    ∀ e ∈ (shell.executeLine line s : Step ε Status).events, ¬ IsLine e :=
  (executeLine_madeOf shell line).events s

theorem builtin_brings {builtin : Builtin} (hne : builtin ≠ .exit) (list : TokenList) :
    Brings (· = .proceed) (builtin.run list) := by
  have done {ε α : Type} (act : Act ε α) :
      Brings (· = Status.proceed) (do let _ ← act; pure .proceed) :=
    .bind fun _ => .pure rfl
  cases builtin with
  | exit => exact absurd rfl hne
  | cd =>
    refine .mapError _ ?_
    split
    · exact .bind fun _ => .bind fun _ => done _
    · exact .bind fun _ => .bind fun _ => done _
  | pid => exact .bind fun _ => done _
  | ppid => exact .bind fun _ => done _
  | pwd => exact .bind fun _ => done _
  | get =>
    change Brings _ (Builtin.runGet list)
    unfold Builtin.runGet
    split
    · exact done _
    · refine .bind fun found => ?_
      cases found <;> exact done _
  | set =>
    change Brings _ (Builtin.runSet list)
    unfold Builtin.runSet
    split <;> exact done _

theorem runExternal_brings (name : Bytes) (list : TokenList) :
    Brings (· = .proceed) (runExternal name list) := by
  refine .bind fun _ => .bind fun _ => .bind fun outcome => ?_
  split
  · exact .bind fun _ => .pure rfl
  · exact .pure rfl

def complaints (events : List Event) : List Bytes :=
  events.filterMap fun
    | .complained piece _ => some piece
    | _ => none

theorem diagnostic_ne_nil (highlighter : Highlighter) (command message : String) :
    Bytes.ofString (highlighter.apply (command ++ ": " ++ message)) ≠ [] := by
  have hcolon : Bytes.ofString ": " ≠ [] := by decide
  cases highlighter <;> simp [Highlighter.apply, Bytes.ofString_append, hcolon]

def tell (text : Bytes) : Act Fault Unit := do
  Act.complain text
  Act.complain [newline]

theorem tell_madeOf (text : Bytes) : MadeOf IsComplaint False (tell text) :=
  .bind (.complain _ fun _ => trivial) fun _ => .complain _ fun _ => trivial

theorem report_events {ε : Type} (shell : Shell) (command : String) (error : CommandError)
    (s : Session) :
    let text := Bytes.ofString (shell.highlighter.apply (command ++ ": " ++ error.message))
    (shell.report command error s : Step ε Unit).events =
      .flushed s.out.flush.1 :: (tell text { s with out := s.out.flush.2 }).events := by
  intro text
  have hflush : (Act.flush.attempt s : Step ε _) =
      ⟨.ok (Act.flush s).result, [.flushed s.out.flush.1], { s with out := s.out.flush.2 }⟩ := by
    simp [Act.attempt, Act.flush_step]
  change ((Act.flush.attempt >>= _ : Act ε Unit) s).events = _
  rw [Act.bind_ok (congrArg Step.result hflush), hflush, Act.bind_ok rfl]
  simp [Act.attempt, Pure.pure, Act.pure, tell, text]

/-- A report offers its text, and the newline behind it once the text has been taken whole. -/
theorem complaints_report {ε : Type} (shell : Shell) (command : String) (error : CommandError)
    (s : Session) :
    let text := Bytes.ofString (shell.highlighter.apply (command ++ ": " ++ error.message))
    complaints (shell.report command error s : Step ε Unit).events =
      text :: if (s.err.write text).1 = .whole then [[newline]] else [] := by
  intro text
  have hne : text.isEmpty = false := by
    simpa using diagnostic_ne_nil shell.highlighter command error.message
  have htext := Act.complain_step text { s with out := s.out.flush.2 }
  rw [report_events]
  unfold tell
  cases hreply : (s.err.write text).1 with
  | whole =>
    simp only [hne, hreply, WriteReply.fault?] at htext
    rw [Act.bind_ok (congrArg Step.result htext), htext, Act.complain_step]
    rfl
  | cut taken fault =>
    simp only [hne, hreply, WriteReply.fault?] at htext
    rw [Act.bind_error (congrArg Step.result htext), htext]
    rfl

end LineShell
