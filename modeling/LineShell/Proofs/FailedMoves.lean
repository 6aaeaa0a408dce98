import LineShell.Proofs.Refusals
import Mathlib.Logic.Function.Iterate

/-!
# Moves that fail

A move is made first, and only then is the system asked where it has led. So `cd` can fail after it
has moved: that takes a path of dots, which leads from a removed directory up to another one that is
removed as well. Any other `cd` that fails leaves all as it was, and none that fails binds a
variable.
-/
namespace LineShell

namespace Place

variable {place : Place}

/-- How many directories are gone, from a place upwards to the first that is not. -/
def gone : Place → Nat
  | live _ => 0
  | removed above => above.gone + 1

theorem isLive_iff_gone : place.IsLive ↔ place.gone = 0 := by
  cases place with
  | live path => exact iff_of_true ⟨path, rfl⟩ rfl
  | removed above =>
    refine iff_of_false ?_ (Nat.succ_ne_zero _)
    rintro ⟨path, hpath⟩
    cases hpath

theorem gone_parent (place : Place) : place.parent.gone = place.gone - 1 := by
  cases place <;> rfl

theorem gone_ancestor (n : Nat) (place : Place) :
    (parent^[n] place).gone = place.gone - n := by
  induction n generalizing place with
  | zero => rfl
  | succ n ih =>
    rw [Function.iterate_succ_apply, ih, gone_parent]
    omega

theorem not_isLive_ancestor_iff {n : Nat} : ¬ (parent^[n] place).IsLive ↔ n < place.gone := by
  rw [isLive_iff_gone, gone_ancestor]
  omega

theorem ancestor_eq_self_iff {n : Nat} (h : n < place.gone) : parent^[n] place = place ↔ n = 0 := by
  constructor
  · intro heq
    have hgone := gone_ancestor n place
    rw [heq] at hgone
    omega
  · rintro rfl
    rfl

end Place

namespace Path

/-- A relative path without any name in it but dots. -/
structure OnlyDots (path : Bytes) : Prop where
  nonempty : path ≠ []
  relative : isAbsolute path = false
  short : path.length ≤ Tree.longestPath
  dots : ∀ name ∈ written path, name = dot ∨ name = dotDot

/-- How many levels such a path leads up. -/
def climb (path : Bytes) : Nat :=
  (written path).count dotDot

instance (path : Bytes) : Decidable (OnlyDots path) :=
  decidable_of_iff (path ≠ [] ∧ isAbsolute path = false ∧ path.length ≤ Tree.longestPath ∧
      ∀ name ∈ written path, name = dot ∨ name = dotDot)
    ⟨fun ⟨h₁, h₂, h₃, h₄⟩ => ⟨h₁, h₂, h₃, h₄⟩,
      fun h => ⟨h.nonempty, h.relative, h.short, h.dots⟩⟩

end Path

theorem Bytes.mem_splitWhere (separates : UInt8 → Bool) {b : UInt8} {bytes : Bytes}
    (hb : separates b = false) (h : b ∈ bytes) :
    ∃ stretch ∈ splitWhere separates bytes, b ∈ stretch := by
  induction bytes with
  | nil => cases h
  | cons c bytes ih =>
    cases hc : separates c with
    | true =>
      have hne : b ≠ c := by
        rintro rfl
        exact absurd hc (by simp [hb])
      obtain ⟨stretch, hmem, hin⟩ := ih ((List.mem_cons.mp h).resolve_left hne)
      rw [splitWhere_cons_separator hc]
      exact ⟨stretch, List.mem_cons_of_mem _ hmem, hin⟩
    | false =>
      obtain ⟨first, others, hs⟩ : ∃ first others, splitWhere separates bytes = first :: others :=
        ⟨_, _, rfl⟩
      rw [splitWhere_cons_of_eq_cons hc hs]
      rcases List.mem_cons.mp h with rfl | h
      · exact ⟨b :: first, List.mem_cons_self, List.mem_cons_self⟩
      · obtain ⟨stretch, hmem, hin⟩ := ih h
        rw [hs] at hmem
        rcases List.mem_cons.mp hmem with rfl | hmem
        · exact ⟨c :: stretch, List.mem_cons_self, List.mem_cons_of_mem c hin⟩
        · exact ⟨stretch, List.mem_cons_of_mem _ hmem, hin⟩

namespace Path

variable {path : Bytes}

theorem OnlyDots.hasNul_eq_false (h : OnlyDots path) : path.hasNul = false := by
  rw [Bytes.hasNul, List.contains_eq_mem, decide_eq_false_iff_not]
  intro hnul
  obtain ⟨name, hname, hin⟩ := Bytes.mem_splitWhere (· == Bytes.slash) (by decide) hnul
  have hwritten : name ∈ written path := by
    refine List.mem_filter.mpr ⟨hname, ?_⟩
    simpa using List.ne_nil_of_mem hin
  rcases h.dots name hwritten with rfl | rfl
  · exact absurd hin (by decide)
  · exact absurd hin (by decide)

theorem forall_steps_iff :
    (∀ name ∈ steps path, name = dot ∨ name = dotDot) ↔
      ∀ name ∈ written path, name = dot ∨ name = dotDot := by
  unfold steps
  split
  · simp [or_imp, forall_and]
  · rw [List.append_nil]

theorem count_steps (path : Bytes) : (steps path).count dotDot = climb path := by
  have hdot : [dot].count dotDot = 0 := by decide
  unfold steps climb
  split
  · rw [List.count_append, hdot, Nat.add_zero]
  · rw [List.append_nil]

end Path

namespace Tree

variable {tree : Tree} {place found : Place} {names : List Bytes} {path : Bytes}
  {onLink : Place → List Bytes → Except Fault Found}

theorem walkWith_dots (h : ∀ name ∈ names, name = Path.dot ∨ name = Path.dotDot) (place : Place) :
    tree.walkWith onLink place names =
      .ok (.directory (Place.parent^[names.count Path.dotDot] place)) := by
  have hne : Path.dot ≠ Path.dotDot := by decide
  induction names generalizing place with
  | nil => rfl
  | cons name names ih =>
    obtain ⟨hname, hnames⟩ := List.forall_mem_cons.mp h
    rcases hname with rfl | rfl
    · unfold walkWith
      rw [if_pos rfl, ih hnames, List.count_cons_of_ne hne]
    · unfold walkWith
      rw [if_neg hne.symm, if_pos rfl, ih hnames, List.count_cons_self,
        Function.iterate_succ_apply]

theorem dots_of_walkWith
    (hlink : ∀ {start names found}, start.IsLive → onLink start names = .ok (.directory found) →
      found.IsLive)
    (h : tree.walkWith onLink place names = .ok (.directory found)) (hfound : ¬ found.IsLive) :
    ∀ name ∈ names, name = Path.dot ∨ name = Path.dotDot := by
  induction names generalizing place with
  | nil => exact List.forall_mem_nil _
  | cons name names ih =>
    have hplace : ¬ place.IsLive := fun hlive =>
      hfound (walkWith_keeps tree.carries_isLive hlink hlive h)
    rw [List.forall_mem_cons]
    unfold walkWith at h
    split at h
    · next hdot => exact ⟨.inl hdot, ih h⟩
    · split at h
      · next hup => exact ⟨.inr hup, ih h⟩
      · split at h
        · cases h
        · exact absurd ⟨_, rfl⟩ hplace

theorem walk_dots {links : Nat} (h : ∀ name ∈ names, name = Path.dot ∨ name = Path.dotDot)
    (place : Place) :
    tree.walk links place names =
      .ok (.directory (Place.parent^[names.count Path.dotDot] place)) := by
  cases links <;> exact walkWith_dots h place

theorem dots_of_walk {links : Nat} (h : tree.walk links place names = .ok (.directory found))
    (hfound : ¬ found.IsLive) : ∀ name ∈ names, name = Path.dot ∨ name = Path.dotDot := by
  cases links with
  | zero => exact dots_of_walkWith (fun _ hlink => by cases hlink) h hfound
  | succ links =>
    exact dots_of_walkWith
      (fun hstart hlink => walk_keeps tree.carries_isLive hstart hlink) h hfound

theorem resolve_dots (h : Path.OnlyDots path) (cwd : Place) :
    tree.resolve cwd path = .ok (.directory (Place.parent^[Path.climb path] cwd)) := by
  have hne : ¬ path.isEmpty = true := by simpa using h.nonempty
  have horigin : origin cwd path = cwd := by simp [origin, h.relative]
  rw [resolve, if_neg hne, if_neg (Nat.not_lt.mpr h.short), horigin,
    walk_dots (Path.forall_steps_iff.mpr h.dots), Path.count_steps]

theorem onlyDots_of_resolve {cwd : Place} (h : tree.resolve cwd path = .ok (.directory found))
    (hfound : ¬ found.IsLive) : Path.OnlyDots path := by
  unfold resolve at h
  split at h
  · cases h
  · next hne =>
    split at h
    · cases h
    · next hshort =>
      refine ⟨by simpa using hne, ?_, Nat.not_lt.mp hshort, ?_⟩
      · rw [← Bool.not_eq_true]
        intro habsolute
        rw [origin, if_pos habsolute] at h
        exact hfound (walk_keeps tree.carries_isLive Place.root_isLive h)
      · exact Path.forall_steps_iff.mp (dots_of_walk h hfound)

end Tree

namespace World

variable {w w' : World} {path : Bytes}

/-- The path leads up from a removed directory, but not out of those that are removed. -/
structure Strays (w : World) (path : Bytes) : Prop where
  dots : Path.OnlyDots path
  up : 0 < Path.climb path
  within : Path.climb path < w.cwd.gone

instance (w : World) (path : Bytes) : Decidable (w.Strays path) :=
  decidable_of_iff (Path.OnlyDots path ∧ 0 < Path.climb path ∧ Path.climb path < w.cwd.gone)
    ⟨fun ⟨h₁, h₂, h₃⟩ => ⟨h₁, h₂, h₃⟩, fun h => ⟨h.dots, h.up, h.within⟩⟩

theorem moveTo_dots (h : Path.OnlyDots path) (w : World) :
    w.moveTo path = .ok { w with cwd := Place.parent^[Path.climb path] w.cwd } := by
  simp [moveTo, h.hasNul_eq_false, Tree.resolve_dots h]

theorem moveTo_removed_iff :
    (∃ w', w.moveTo path = .ok w' ∧ ¬ w'.cwd.IsLive) ↔
      Path.OnlyDots path ∧ Path.climb path < w.cwd.gone := by
  constructor
  · rintro ⟨w', hmove, hcwd⟩
    obtain ⟨place, hfound, rfl⟩ := moveTo_eq hmove
    have hdots := Tree.onlyDots_of_resolve hfound hcwd
    rw [moveTo_dots hdots] at hmove
    obtain rfl := congrArg cwd (Except.ok.inj hmove)
    exact ⟨hdots, Place.not_isLive_ancestor_iff.mp hcwd⟩
  · rintro ⟨hdots, hwithin⟩
    exact ⟨_, moveTo_dots hdots w, Place.not_isLive_ancestor_iff.mpr hwithin⟩

theorem workingDirectory_of_removed (h : ¬ w.cwd.IsLive) :
    w.workingDirectory = .error .noEntry := by
  cases hcwd : w.cwd with
  | live path => exact absurd ⟨path, hcwd⟩ h
  | removed above => simp [workingDirectory, hcwd, Place.path?]

end World

/-- What a failed move leaves of a session: all but the working directory, and that as well unless
the move strays. -/
structure FailsInPlace {ε α : Type} (strays : Prop) (s : Session) (step : Step ε α) : Prop where
  events : step.events = []
  rest : step.session = { s with world := { s.world with cwd := step.session.world.cwd } }
  directory : step.session.world.cwd = s.world.cwd ↔ ¬ strays

section
variable {s : Session} {path : Bytes}

theorem changeDir_of_strays (h : s.world.Strays path) :
    Environment.changeDir path s =
      ⟨.error (.io .noEntry), [], { s with world :=
        { s.world with cwd := Place.parent^[Path.climb path] s.world.cwd } }⟩ := by
  have hremoved := Place.not_isLive_ancestor_iff.mpr h.within
  exact changeDir_of_lost (World.moveTo_dots h.dots s.world)
    (World.workingDirectory_of_removed hremoved)

theorem changeDir_fails {error : EnvError}
    (h : (Environment.changeDir path s).result = .error error) :
    FailsInPlace (s.world.Strays path) s (Environment.changeDir path s) := by
  cases hmove : s.world.moveTo path with
  | error fault =>
    rw [changeDir_of_refused hmove]
    refine ⟨rfl, rfl, iff_of_true rfl ?_⟩
    intro hstrays
    cases hmove.symm.trans (World.moveTo_dots hstrays.dots s.world)
  | ok w =>
    cases hhere : w.workingDirectory with
    | ok current =>
      rw [changeDir_of_moved hmove hhere] at h
      cases h
    | error fault =>
      have hremoved : ¬ w.cwd.IsLive := by
        intro hlive
        obtain ⟨current, hcurrent⟩ := World.cwd_isLive_iff.mp hlive
        cases hhere.symm.trans hcurrent
      obtain ⟨hdots, hwithin⟩ := World.moveTo_removed_iff.mp ⟨w, hmove, hremoved⟩
      obtain rfl := Except.ok.inj (hmove.symm.trans (World.moveTo_dots hdots s.world))
      rw [changeDir_of_lost hmove hhere]
      refine ⟨rfl, rfl, ?_⟩
      dsimp only
      rw [Place.ancestor_eq_self_iff hwithin]
      constructor
      · intro hzero hstrays
        exact absurd hzero (Nat.ne_of_gt hstrays.up)
      · intro hstays
        by_contra hup
        exact hstays ⟨hdots, Nat.pos_of_ne_zero hup, hwithin⟩

theorem goTo_fails {error : EnvError} (h : (goTo path s).result = .error error) :
    FailsInPlace (s.world.Strays path) s (goTo path s) := by
  cases hcd : (Environment.changeDir path s).result with
  | ok current =>
    unfold goTo at h
    rw [Act.bind_ok hcd, Act.bind_ok rfl] at h
    cases h
  | error cause =>
    have hfails := changeDir_fails hcd
    unfold goTo
    rw [Act.bind_error hcd]
    exact ⟨hfails.events, hfails.rest, hfails.directory⟩

theorem runCd_fails {list : TokenList} {error : CommandError}
    (h : (Builtin.runCd list s).result = .error error) :
    FailsInPlace (∃ target ∈ s.world.target? list, s.world.Strays target) s
      (Builtin.runCd list s) := by
  cases haim : s.world.target? list with
  | none =>
    rw [runCd_of_homeless haim]
    refine ⟨rfl, rfl, iff_of_true rfl ?_⟩
    rintro ⟨target, htarget, _⟩
    cases htarget
  | some target =>
    rw [runCd_of_target haim] at h ⊢
    obtain ⟨cause, hgo, _⟩ := Act.mapError_error_iff.mp h
    have hfails := goTo_fails hgo
    refine ⟨hfails.events, hfails.rest, hfails.directory.trans ?_⟩
    simp

end

/-- A failed `cd` binds nothing, and it leaves the shell in its directory exactly if it does not
stray: if it is not aimed, among removed directories, from one to another above it. One that strays
fails, but has moved. While the working directory or the one above it exists, none strays. -/
theorem failed_cd_stays_unless_it_strays (s : Session) :
    (∀ path error, (Environment.changeDir path s).result = .error error →
      FailsInPlace (s.world.Strays path) s (Environment.changeDir path s)) ∧
    (∀ list error, (Builtin.cd.run list s).result = .error error →
      FailsInPlace (∃ target ∈ s.world.target? list, s.world.Strays target) s
        (Builtin.cd.run list s)) ∧
    (∀ path, s.world.Strays path → Environment.changeDir path s =
      ⟨.error (.io .noEntry), [],
        { s with world := { s.world with cwd := Place.parent^[Path.climb path] s.world.cwd } }⟩) ∧
    (s.world.cwd.gone ≤ 1 → ∀ path, ¬ s.world.Strays path) := by
  refine ⟨?_, ?_, ?_, ?_⟩
  · intro path error h
    exact changeDir_fails h
  · intro list error h
    exact runCd_fails h
  · intro path h
    exact changeDir_of_strays h
  · intro hgone path h
    have hup := h.up
    have hwithin := h.within
    omega

/-- A child has removed the directory that the shell sits in, and the one above it. -/
def amongRemoved : Session :=
  let lines := ["mkdir /tmp/a /tmp/a/b\n", "cd /tmp/a/b\n", "rmdir /tmp/a/b /tmp/a\n"]
  (Shell.mk "$ " .plain).afterLines (lines.map Bytes.ofString)
    ⟨Machine.world [("PATH", "/bin")], .accepting, .accepting⟩

/-- Among removed directories a `cd` to where the shell is and one to what no longer exists fail in
place, and one that leads up strays. -/
theorem failed_cd_stays_among_removed :
    let s := amongRemoved
    let cd (target : String) : TokenList := .ofList (["cd", target].map Bytes.ofString)
    (Builtin.cd.run (cd "./.") s).result = .error (.env (.io .noEntry)) ∧
    (Builtin.cd.run (cd "./.") s).session.world.cwd = s.world.cwd ∧
    (Builtin.cd.run (cd "../b") s).result =
      .error (.env (.changeDir (Bytes.ofString "../b") .noEntry)) ∧
    (Builtin.cd.run (cd "../b") s).session.world.cwd = s.world.cwd ∧
    (Environment.changeDir (Bytes.ofString ".//..") s).session.world.cwd = s.world.cwd.parent := by
  intro s cd
  obtain ⟨_, hfails, hstrays, _⟩ := failed_cd_stays_unless_it_strays s
  have hdot : (Builtin.cd.run (cd "./.") s).result = .error (.env (.io .noEntry)) := by
    decide +kernel
  have hgone : (Builtin.cd.run (cd "../b") s).result =
      .error (.env (.changeDir (Bytes.ofString "../b") .noEntry)) := by
    decide +kernel
  have hup : s.world.Strays (Bytes.ofString ".//..") := by decide +kernel
  have hclimb : Path.climb (Bytes.ofString ".//..") = 1 := by decide
  refine ⟨hdot, (hfails _ _ hdot).directory.mpr ?_, hgone, (hfails _ _ hgone).directory.mpr ?_, ?_⟩
  · decide +kernel
  · decide +kernel
  · rw [hstrays _ hup, hclimb, Function.iterate_one]

/-- A `cd` up fails and has moved all the same: the next one gets out, which from where the first
began it could not. -/
theorem failed_cd_has_moved :
    let s := amongRemoved
    let cd := Builtin.cd.run (.ofList (["cd", ".."].map Bytes.ofString))
    (cd s).result = .error (.env (.io .noEntry)) ∧ (cd s).session.world.cwd ≠ s.world.cwd ∧
    (cd (cd s).session).result = .ok .proceed := by
  decide +kernel

end LineShell
