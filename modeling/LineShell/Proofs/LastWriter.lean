import LineShell.Proofs.CommandEffects
import LineShell.Proofs.TokenGrammar
import LineShell.Proofs.VariableStore

/-!
# The last writer wins

Two commands write to the variable store: `set`, and `cd` for `PWD`. After any lines a name is bound
to what the last of them that went well bound it to, and to what it was bound to at the start if
there was none. `get`, a child and the search for a program all see this one binding.
-/
namespace LineShell

open Bytes (newline)

def lastValue? (name : Bytes) (made : List Variable) : Option Bytes :=
  ((made.filter (·.name = name)).getLast?).map Variable.value

namespace Shell

variable (shell : Shell)

/-- The bindings that lines make, one line after another. -/
def bindings : List Bytes → Session → List Variable
  | [], _ => []
  | line :: later, s =>
    (bindingOf (tokenize line) (execute (tokenize line) s)).toList ++
      bindings later (shell.executeLine line s : Step ShellError Status).session

/-- The latest binding of a name, or else the one at the start. -/
def boundAfter? (lines : List Bytes) (s : Session) (name : Bytes) : Option Bytes :=
  (lastValue? name (shell.bindings lines s)).or (s.world.vars.valueOf? name)

end Shell

theorem lastValue?_append (name : Bytes) (before after : List Variable) :
    lastValue? name (before ++ after) = (lastValue? name after).or (lastValue? name before) := by
  simp only [lastValue?, List.filter_append, List.getLast?_append]
  cases (after.filter (·.name = name)).getLast? <;> rfl

theorem pwd_valid : Variables.validName Environment.pwd = true := by decide

section
variable {list : TokenList} {s : Session}

theorem execute_valueOf? (list : TokenList) (s : Session) (name : Bytes) :
    (execute list s).session.world.vars.valueOf? name =
      (lastValue? name (bindingOf list (execute list s)).toList).or
        (s.world.vars.valueOf? name) := by
  have hset (v : Variable) : (s.world.vars.set v.name v.value).valueOf? name =
      (lastValue? name [v]).or (s.world.vars.valueOf? name) := by
    rw [Variables.valueOf?_set]
    by_cases hv : v.name = name <;> simp [lastValue?, hv]
  cases execute_effect list s with
  | still made world =>
    rw [made, world]
    rfl
  | bound v made _ _ _ _ world =>
    rw [made, world]
    exact hset v
  | moved target w current made _ move _ world =>
    rw [made, world]
    dsimp only
    rw [World.moveTo_vars move]
    exact hset ⟨Environment.pwd, current⟩
  | strayed target w fault made _ move _ world =>
    rw [made, world, World.moveTo_vars move]
    rfl
  | ran name arguments script made _ _ _ world =>
    rw [made, world, World.live_vars]
    rfl

end

namespace Shell

variable {shell : Shell} {s : Session}

theorem afterLines_keeps_vars {P : Variables → Prop} (hs : P s.world.vars)
    (hset : ∀ vars name value, Variables.validName name = true → P vars → P (vars.set name value))
    (lines : List Bytes) : P (shell.afterLines lines s).world.vars :=
  shell.afterLines_keeps (P := (P ·.world.vars)) hs (fun line s hs => by
    rw [executeLine_world]
    exact execute_keeps_vars hs hset) lines

theorem afterLines_wellNamed (h : s.world.vars.WellNamed) (lines : List Bytes) :
    (shell.afterLines lines s).world.vars.WellNamed :=
  afterLines_keeps_vars h (fun _ _ _ hname hvars => hvars.set hname) lines

theorem afterLines_takesAll (h : s.out.TakesAll) (lines : List Bytes) :
    (shell.afterLines lines s).out.TakesAll :=
  shell.afterLines_keeps (P := (·.out.TakesAll)) h
    (fun line _ hs => executeLine_keeps_takesAll hs shell line) lines

theorem afterLines_valueOf? (lines : List Bytes) (s : Session) (name : Bytes) :
    (shell.afterLines lines s).world.vars.valueOf? name = shell.boundAfter? lines s name := by
  induction lines generalizing s with
  | nil => rfl
  | cons line later ih =>
    have hlater := ih (shell.executeLine line s : Step ShellError Status).session
    have hline : (shell.executeLine line s : Step ShellError Status).session.world =
        (execute (tokenize line) s).session.world := executeLine_world shell line s
    unfold boundAfter? at hlater ⊢
    rw [bindings, lastValue?_append, Option.or_assoc, ← execute_valueOf?, ← hline]
    exact hlater

theorem afterLines_get? (h : s.world.vars.WellNamed) (lines : List Bytes) {name : Bytes}
    (hname : Variables.validName name = true) :
    (shell.afterLines lines s).world.vars.get? name = shell.boundAfter? lines s name := by
  rw [Variables.get?_eq_valueOf? (afterLines_wellNamed h lines).plain hname, afterLines_valueOf?]

end Shell

section
variable (shell : Shell) {line name : Bytes} {s : Session}

theorem written_of_get {more : List Bytes} (ho : s.out.TakesAll)
    (h : Reads line (Bytes.ofString "get" :: name :: more)) :
    written (shell.executeLine line s : Step ShellError Status).events =
      match s.world.vars.get? name with
      | some value => value ++ [newline]
      | none => Bytes.ofString "unable to find variable\n" := by
  have hcommand := command_of_reads h
  have hargument := argument_of_reads h
  have hget : Builtin.ofName? (Bytes.ofString "get") = some .get := by decide
  cases hvalue : s.world.vars.get? name with
  | some value =>
    have hspoken : Builtin.get.spoken (tokenize line) s.world = some [value, [newline]] := by
      simp [Builtin.spoken, hargument, hvalue]
    rw [written_of_spoken shell ho hcommand hget hspoken]
    simp
  | none =>
    have hspoken : Builtin.get.spoken (tokenize line) s.world =
        some [Bytes.ofString "unable to find variable\n"] := by
      simp [Builtin.spoken, hargument, hvalue]
    rw [written_of_spoken shell ho hcommand hget hspoken]
    simp

theorem executeLine_started {argv : List Bytes} {vars : Variables}
    (h : .started argv vars ∈ (shell.executeLine line s : Step ShellError Status).events) :
    vars = s.world.vars :=
  (execute_started ((executeLine_start shell (Event.started_isStart _ _)).mp h)).2.1

theorem executeLine_starts_iff {command : Bytes} {arguments : List Bytes} (ho : s.out.TakesAll)
    (h : Reads line (command :: arguments)) (hb : Builtin.ofName? command = none)
    (hslash : Bytes.slash ∉ command) (hnul : ∀ argument ∈ command :: arguments, 0 ∉ argument) :
    (∃ vars, .started (command :: arguments) vars ∈
        (shell.executeLine line s : Step ShellError Status).events) ↔
      ∃ script, s.world.search (command :: arguments) (command.take (Tree.longestName + 1)) false
        .noEntry s.world.searchPath = .ok script := by
  have htokens := (reads_iff_tokens.mp h).symm
  have hne : command ≠ [] := (isWord_of_reads h List.mem_cons_self).1
  have hargv : (command :: arguments).any Bytes.hasNul = false := by
    simpa [Bytes.hasNul] using hnul
  have hexec : s.world.exec command arguments =
      s.world.search (command :: arguments) (command.take (Tree.longestName + 1)) false .noEntry
        s.world.searchPath := by
    simp [World.exec, hargv, hne, hslash]
  constructor
  · rintro ⟨vars, hstart⟩
    obtain ⟨_, _, _, name, arguments', script, htokens', _, hscript⟩ :=
      execute_started ((executeLine_start shell (Event.started_isStart _ _)).mp hstart)
    obtain ⟨rfl, rfl⟩ := List.cons.inj (htokens.symm.trans htokens')
    exact ⟨script, hexec ▸ hscript⟩
  · rintro ⟨script, hscript⟩
    have hstart := execute_starts htokens hb ho.flush_none (hexec.trans hscript)
    exact ⟨s.world.vars, (executeLine_start shell (Event.started_isStart _ _)).mpr hstart⟩

end

/-- After any lines `get` writes the latest binding of a name, byte for byte. A child started
instead has this one binding of the name and is looked for along the latest binding of `PATH`. -/
theorem get_and_children_see_last_writer (shell : Shell) (lines : List Bytes) (s : Session)
    (name : Bytes) (hs : s.world.vars.WellNamed) (ho : s.out.TakesAll)
    (hname : Variables.validName name = true) :
    let t := shell.afterLines lines s
    let step (line : Bytes) : Step ShellError Status := shell.executeLine line t
    (∀ line more, Reads line (Bytes.ofString "get" :: name :: more) →
      written (step line).events =
        match shell.boundAfter? lines s name with
        | some value => value ++ [newline]
        | none => Bytes.ofString "unable to find variable\n") ∧
    (∀ line argv vars, .started argv vars ∈ (step line).events →
      vars.get? name = shell.boundAfter? lines s name ∧
        (vars.filter (·.name = name)).map Variable.value =
          (shell.boundAfter? lines s name).toList) ∧
    (∀ line command arguments, Reads line (command :: arguments) →
      Builtin.ofName? command = none → Bytes.slash ∉ command →
      (∀ argument ∈ command :: arguments, 0 ∉ argument) →
      let path := (shell.boundAfter? lines s (Bytes.ofString "PATH")).getD World.standardPath
      ((∃ vars, .started (command :: arguments) vars ∈ (step line).events) ↔
        ∃ script, t.world.search (command :: arguments) (command.take (Tree.longestName + 1)) false
          .noEntry (path.splitWhere (· == Bytes.colon)) = .ok script)) := by
  intro t step
  have ht : t.out.TakesAll := Shell.afterLines_takesAll ho lines
  have hvalue : t.world.vars.get? name = shell.boundAfter? lines s name :=
    Shell.afterLines_get? hs lines hname
  refine ⟨?_, ?_, ?_⟩
  · intro line more h
    rw [← hvalue]
    exact written_of_get shell ht h
  · intro line argv vars h
    obtain rfl := executeLine_started shell h
    refine ⟨hvalue, ?_⟩
    rw [← Shell.afterLines_valueOf?]
    exact Variables.values_eq_toList (Shell.afterLines_wellNamed hs lines).distinct name
  · intro line command arguments h hb hslash hnul path
    have hpath : t.world.searchPath = path.splitWhere (· == Bytes.colon) := by
      rw [World.searchPath, Shell.afterLines_get? hs lines (by decide)]
    rw [← hpath]
    exact executeLine_starts_iff shell ht h hb hslash hnul

/-- `PWD` is bound by hand and then by a move, and the last line is refused. -/
theorem get_and_child_see_move :
    let s : Session := ⟨Machine.world [("PATH", "/bin"), ("PWD", "/")], .accepting, .accepting⟩
    let lines := ["set PWD x\n", "cd tmp\n", "set P=WD y\n"].map Bytes.ofString
    let shell := Shell.mk "$ " .plain
    let step (line : String) : Step ShellError Status :=
      shell.executeLine (Bytes.ofString line) (shell.afterLines lines s)
    s.world.vars.WellNamed ∧ s.out.TakesAll ∧ Variables.validName Environment.pwd = true ∧
      written (step "get PWD x\n").events = Bytes.ofString "/tmp\n" ∧
      ∃ vars, .started [Bytes.ofString "true"] vars ∈ (step "true").events ∧
        vars.get? Environment.pwd = some (Bytes.ofString "/tmp") := by
  intro s lines shell step
  have hs : s.world.vars.WellNamed := ⟨by decide, by decide, by decide⟩
  have ho : s.out.TakesAll := Channel.accepting_takesAll
  have hlast : shell.boundAfter? lines s Environment.pwd = some (Bytes.ofString "/tmp") := by
    decide +kernel
  obtain ⟨hget, hchild, hstarts⟩ :=
    get_and_children_see_last_writer shell lines s Environment.pwd hs ho pwd_valid
  have hline : Reads (Bytes.ofString "true") [Bytes.ofString "true"] :=
    reads_iff_tokens.mpr (by decide)
  have hfound := (hstarts _ _ _ hline (by decide) (by decide) (by decide)).mpr
    (exists_of_isOk (by decide +kernel))
  obtain ⟨vars, hvars⟩ := hfound
  refine ⟨hs, ho, pwd_valid, ?_, vars, hvars, ?_⟩
  · have hline : Reads (Bytes.ofString "get PWD x\n")
        (Bytes.ofString "get" :: Environment.pwd :: [Bytes.ofString "x"]) :=
      reads_iff_tokens.mpr (by decide)
    rw [hget _ _ hline, hlast]
    decide
  · rw [(hchild _ _ _ hvars).1, hlast]

end LineShell
