import LineShell.Proofs.LastWriter
import LineShell.Proofs.SoundStore

/-!
# Names that `set` refuses

A name is looked up by the text of the entries, and nobody asks first whether it is one. So a text
with an equals sign in it, which `set` takes for no name, can be found after all: as the name of a
variable together with the beginning of its value. What it finds then is the rest of this value.
-/
namespace LineShell

open Bytes (equals newline)

/-- The text is the name of a variable, an equals sign and the value of the variable up to a further
one, and `rest` is all of the value behind that. -/
def RunsInto (valueOf? : Bytes → Option Bytes) (text rest : Bytes) : Prop :=
  ∃ name front, text = name ++ equals :: front ∧ valueOf? name = some (front ++ equals :: rest)

/-- What becomes of a text that is no name, if `Finds` tells what it finds. -/
structure LooksUp (Finds : Bytes → Prop) (text : Bytes) (s : Session) : Prop where
  refused : ∀ value, Environment.setVar text value s = ⟨.error (.badName (Utf8.lossy text)), [], s⟩
  found : ∀ rest, Environment.var text s = ⟨.ok rest, [], s⟩ ↔ Finds rest
  unset : Environment.var text s = ⟨.error (.unset (Utf8.lossy text)), [], s⟩ ↔ ∀ rest, ¬ Finds rest
  told : ∀ list : TokenList, list.get? 1 = some text → ∀ rest, Finds rest →
    Builtin.get.run list s = Builtin.say [rest, [newline]] s
  missed : ∀ list : TokenList, list.get? 1 = some text → (∀ rest, ¬ Finds rest) →
    Builtin.get.run list s = Builtin.say [Bytes.ofString "unable to find variable\n"] s

namespace Variables

variable {vars : Variables} {name front value text rest : Bytes}

theorem valueOf?_eq_some_iff (h : vars.names.Nodup) :
    vars.valueOf? name = some value ↔ ⟨name, value⟩ ∈ vars := by
  rw [← Option.mem_toList, ← values_eq_toList h, List.mem_map]
  constructor
  · rintro ⟨v, hv, rfl⟩
    obtain ⟨hmem, hname⟩ := List.mem_filter.mp hv
    obtain rfl := of_decide_eq_true hname
    exact hmem
  · intro hmem
    exact ⟨⟨name, value⟩, List.mem_filter.mpr ⟨hmem, decide_eq_true rfl⟩, rfl⟩

theorem after?_entry_eq_some_iff {v : Variable} (hv : equals ∉ v.name) (hname : equals ∉ name) :
    Bytes.after? (name ++ equals :: front ++ [equals]) v.entry = some rest ↔
      v = ⟨name, front ++ equals :: rest⟩ := by
  have hsplit : name ++ equals :: front ++ [equals] ++ rest =
      name ++ equals :: (front ++ equals :: rest) := by simp
  rw [Bytes.after?_eq_some_iff, hsplit, Variable.entry, append_equals_inj hv hname,
    ← Variable.mk.injEq]

theorem get?_append_equals (h : vars.Named) (hname : equals ∉ name)
    (hnul : (name ++ equals :: front).hasNul = false) :
    vars.get? (name ++ equals :: front) = some rest ↔
      vars.valueOf? name = some (front ++ equals :: rest) := by
  have hne : name ++ equals :: front ≠ [] := by simp
  have hentry (v : Variable) (hv : v ∈ vars) (rest : Bytes) :
      Bytes.after? (name ++ equals :: front ++ [equals]) v.entry = some rest ↔
        v = ⟨name, front ++ equals :: rest⟩ :=
    after?_entry_eq_some_iff (h.isName v.name (List.mem_map_of_mem hv)).noEquals hname
  have hfinds {rest : Bytes} (hrest : vars.get? (name ++ equals :: front) = some rest) :
      vars.valueOf? name = some (front ++ equals :: rest) := by
    rw [get?_eq_findSome? hne hnul] at hrest
    obtain ⟨v, hv, hafter⟩ := List.exists_of_findSome?_eq_some hrest
    obtain rfl := (hentry v hv rest).mp hafter
    exact (valueOf?_eq_some_iff h.distinct).mpr hv
  constructor
  · exact hfinds
  · intro hvalue
    have hv := (valueOf?_eq_some_iff h.distinct).mp hvalue
    have hsome : (vars.get? (name ++ equals :: front)).isSome = true := by
      rw [get?_eq_findSome? hne hnul, List.findSome?_isSome_iff]
      exact ⟨_, hv, Option.isSome_of_eq_some ((hentry _ hv rest).mpr rfl)⟩
    obtain ⟨other, hother⟩ := Option.isSome_iff_exists.mp hsome
    have hsame := Option.some.inj (hvalue.symm.trans (hfinds hother))
    obtain rfl := (List.cons.inj (List.append_cancel_left hsame)).2
    exact hother

theorem runsInto_append_equals (h : vars.Named) (hname : equals ∉ name) :
    RunsInto vars.valueOf? (name ++ equals :: front) rest ↔
      vars.valueOf? name = some (front ++ equals :: rest) := by
  constructor
  · rintro ⟨other, behind, hcut, hvalue⟩
    have hmem := (valueOf?_eq_some_iff h.distinct).mp hvalue
    have hother : equals ∉ other := (h.isName other (List.mem_map_of_mem hmem)).noEquals
    obtain ⟨rfl, rfl⟩ := (append_equals_inj hname hother).mp hcut
    exact hvalue
  · intro hvalue
    exact ⟨name, front, rfl, hvalue⟩

theorem get?_eq_some_iff_runsInto (h : vars.Named) (htext : ¬ IsName text) :
    vars.get? text = some rest ↔ 0 ∉ text ∧ RunsInto vars.valueOf? text rest := by
  by_cases hnul : 0 ∈ text
  · have hnone : vars.get? text = none := by simp [get?, hasNul_iff.mpr hnul]
    simp [hnone, hnul]
  by_cases hempty : text = []
  · have hnone : vars.get? text = none := by simp [get?, hempty]
    rw [hnone]
    simp [hempty, RunsInto]
  have hequals : equals ∈ text := by
    by_contra hequals
    exact htext ⟨hempty, hequals, hnul⟩
  obtain ⟨name, front, rfl, hname⟩ := List.eq_append_cons_of_mem hequals
  rw [get?_append_equals h hname (hasNul_eq_false_iff.mpr hnul), runsInto_append_equals h hname]
  simp [hnul]

end Variables

section
variable {Finds : Bytes → Prop} {text : Bytes} {s : Session}

theorem looksUp_of_get? (htext : ¬ IsName text)
    (h : ∀ rest, s.world.vars.get? text = some rest ↔ Finds rest) : LooksUp Finds text s := by
  have hinvalid : Variables.validName text = false := by
    rw [isName_iff_validName] at htext
    simpa using htext
  have hnone : s.world.vars.get? text = none ↔ ∀ rest, ¬ Finds rest := by
    rw [Option.eq_none_iff_forall_ne_some]
    exact forall_congr' fun rest => not_congr (h rest)
  constructor
  · exact fun value => setVar_of_badName hinvalid value s
  · intro rest
    rw [← h rest, var_step]
    cases s.world.vars.get? text <;> simp
  · rw [← hnone, var_step]
    cases s.world.vars.get? text <;> simp
  · intro list hlist rest hrest
    apply run_of_spoken
    simp [Builtin.spoken, hlist, (h rest).mpr hrest]
  · intro list hlist hrest
    apply run_of_spoken
    simp [Builtin.spoken, hlist, hnone.mpr hrest]

theorem Shell.afterLines_named {shell : Shell} (h : s.world.vars.Named) (lines : List Bytes) :
    (shell.afterLines lines s).world.vars.Named :=
  afterLines_keeps_vars h
    (fun _ _ value hname hvars => hvars.set (isName_iff_validName.mpr hname) value) lines

end

/-- After any lines, a text that is no name is refused by `set`, and by `get` it is taken for the
name in front of its first equals sign: it finds the rest of what this name was last bound to, if
that begins with the rest of the text and an equals sign. Else it finds nothing. -/
theorem refused_names_find_rests_of_values (shell : Shell) (lines : List Bytes) (s : Session)
    (text : Bytes) (hs : s.world.vars.Named) (htext : ¬ IsName text) :
    LooksUp (fun rest => 0 ∉ text ∧ RunsInto (shell.boundAfter? lines s) text rest) text
      (shell.afterLines lines s) := by
  have hnamed : (shell.afterLines lines s).world.vars.Named := Shell.afterLines_named hs lines
  have hvalues : (shell.afterLines lines s).world.vars.valueOf? = shell.boundAfter? lines s := by
    funext name
    exact Shell.afterLines_valueOf? lines s name
  apply looksUp_of_get? htext
  intro rest
  rw [Variables.get?_eq_some_iff_runsInto hnamed htext, hvalues]

/-- The beginning of what `A` was bound to first finds nothing any more, and that of what it was
bound to last does. -/
theorem refused_name_finds_rest_of_last_value :
    let s : Session := ⟨Machine.world [("PATH", "/bin")], .accepting, .accepting⟩
    let lines := ["set A B=C\n", "set A D=E=F\n"].map Bytes.ofString
    let t := (Shell.mk "$ " .plain).afterLines lines s
    let get (text : String) : TokenList := .ofList (["get", text].map Bytes.ofString)
    (s.world.vars.Named ∧ ¬ IsName (Bytes.ofString "A=B") ∧ ¬ IsName (Bytes.ofString "A=D")) ∧
    Builtin.get.run (get "A=B") t = Builtin.say [Bytes.ofString "unable to find variable\n"] t ∧
    Builtin.get.run (get "A=D") t = Builtin.say [Bytes.ofString "E=F", [newline]] t := by
  intro s lines t get
  have hs : s.world.vars.Named := ⟨by decide, by decide⟩
  have hfirst : ¬ IsName (Bytes.ofString "A=B") := by decide
  have hlast : ¬ IsName (Bytes.ofString "A=D") := by decide
  have hvalue : (Shell.mk "$ " .plain).boundAfter? lines s (Bytes.ofString "A") =
      some (Bytes.ofString "D=E=F") := by decide +kernel
  refine ⟨⟨hs, hfirst, hlast⟩, ?_, ?_⟩
  · have hlookup := refused_names_find_rests_of_values (Shell.mk "$ " .plain) lines s _ hs hfirst
    apply hlookup.missed (get "A=B") (by decide)
    rintro rest ⟨_, hfound⟩
    have hcut : Bytes.ofString "A=B" = Bytes.ofString "A" ++ equals :: Bytes.ofString "B" := by
      decide
    have hvalues : (Shell.mk "$ " .plain).boundAfter? lines s = t.world.vars.valueOf? :=
      funext fun name => (Shell.afterLines_valueOf? lines s name).symm
    have hnamed : t.world.vars.Named := Shell.afterLines_named hs lines
    rw [hcut, hvalues, Variables.runsInto_append_equals hnamed (by decide), ← hvalues,
      hvalue] at hfound
    exact absurd hfound (by simp [Bytes.ofString, String.utf8EncodeChar])
  · have hlookup := refused_names_find_rests_of_values (Shell.mk "$ " .plain) lines s _ hs hlast
    apply hlookup.told (get "A=D") (by decide)
    exact ⟨by decide, Bytes.ofString "A", Bytes.ofString "D", by decide, hvalue⟩

/-- `set` takes `A=B` for no name, and `get` finds it. -/
theorem refused_name_is_found :
    let s : Session := ⟨Machine.world [("PATH", "/bin")], .accepting, .accepting⟩
    let t := (Shell.mk "$ " .plain).afterLines [Bytes.ofString "set A B=C\n"] s
    let text := Bytes.ofString "A=B"
    (Environment.setVar text [] t).result = .error (.badName "A=B") ∧
    (Environment.var text t).result = .ok (Bytes.ofString "C") ∧
    (Builtin.get.run (.ofList [Bytes.ofString "get", text]) t).events =
      [.wrote (Bytes.ofString "C") .whole, .wrote [newline] .whole] := by
  decide +kernel

end LineShell
