import LineShell.Proofs.ExactDiagnostics
import LineShell.Proofs.FailedMoves
import LineShell.Proofs.LineTokens

/-!
# Commands that are nowhere to be found

A command that no directory of the search path holds cannot be started, and the search for it ends
with the fault of one element: the first that lets no other be tried, or else the last. Only if this
element leads to a directory, or to nothing, is the command said not to be found. One that leads to
a file, through too many links or to too long a path makes another message of the same absence.

Every directory of the file tree can be searched. So no element of the search path denies access to
a command that it does not hold, and permission is never what an absent command lacks.
-/
namespace LineShell

/-- A name that is looked for along the search path and that a directory can hold. -/
structure IsPlainName (name : Bytes) : Prop where
  nonempty : name ≠ []
  short : name.length ≤ Tree.longestName
  noSlash : Bytes.slash ∉ name
  noNul : 0 ∉ name

def Fault.OfWalk (fault : Fault) : Prop :=
  fault = .noEntry ∨ fault = .notDirectory ∨ fault = .nameTooLong ∨ fault = .linkLoop

theorem Fault.OfWalk.ne_accessDenied {fault : Fault} (h : fault.OfWalk) :
    fault ≠ .accessDenied := by
  rcases h with rfl | rfl | rfl | rfl <;> decide

namespace Tree

/-- Whether a directory has an entry of this name. Each has those of dots, a removed one no
other. -/
def holds (tree : Tree) (name : Bytes) : Place → Bool
  | .live path => name = Path.dot || name = Path.dotDot || (tree.find? (path ++ [name])).isSome
  | .removed _ => name = Path.dot || name = Path.dotDot

/-- What a walk brings, and what it brings with one more name at its end. How many links are left to
follow from a directory hangs on the way to it. -/
inductive Prolongs (tree : Tree) (last : Bytes) :
    Except Fault Found → Except Fault Found → Prop where
  | failed (fault : Fault) : Prolongs tree last (.error fault) (.error fault)
  | blocked (path : Path) (entry : Entry) :
      Prolongs tree last (.ok (.leaf path entry)) (.error .notDirectory)
  | goesOn (found : Place) (left : Nat) :
      Prolongs tree last (.ok (.directory found)) (tree.walk left found [last])

end Tree

namespace World

def named (w : World) (element : Bytes) : Except Fault Found :=
  if element.isEmpty then .ok (.directory w.cwd) else w.tree.resolve w.cwd element

/-- Whether an element names a directory that has an entry of this name. -/
def offers (w : World) (name element : Bytes) : Bool :=
  match w.named element with
  | .ok (.directory place) => w.tree.holds name place
  | _ => false

def shortened (element : Bytes) : Bytes :=
  if Tree.longestPath < element.length then [] else element

/-- The elements that are tried. One that is too long counts for nothing where it comes last. -/
def tried : List Bytes → List Bytes
  | [] => []
  | element :: rest =>
    if Tree.longestPath < element.length && rest.isEmpty then []
    else shortened element :: tried rest

def faultAt (w : World) (name element : Bytes) : Fault :=
  if Tree.longestPath < (candidate element name).length then .nameTooLong
  else
    match w.named element with
    | .ok (.directory _) => .noEntry
    | .ok (.leaf _ _) => .notDirectory
    | .error fault => fault

/-- The fault that a search ends with if all its elements fail: the first that ends it early, or
else the last. -/
def fateOf (last : Fault) (faults : List Fault) : Fault :=
  (faults.find? (!passesOver ·)).getD (faults.getLastD last)

/-- Why a program is not started that no element offers. -/
def absence (w : World) (name : Bytes) (arguments : List Bytes) : Fault :=
  if arguments.any Bytes.hasNul then nulInArgument
  else fateOf .noEntry ((tried w.searchPath).map (w.faultAt name))

end World

section
variable {name element : Bytes}

theorem Path.written_name (h : IsPlainName name) : Path.written name = [name] := by
  have hname : name.splitWhere (· == Bytes.slash) = [name] := by
    apply Bytes.splitWhere_eq_singleton
    intro b hb
    rw [beq_eq_false_iff_ne]
    rintro rfl
    exact h.noSlash hb
  rw [Path.written, hname]
  simp [h.nonempty]

theorem Path.written_behind (element name : Bytes) :
    Path.written (element ++ Bytes.slash :: name) = Path.written element ++ Path.written name := by
  rw [Path.written, splitWhere_append (by decide), List.filter_append]
  rfl

theorem Path.not_endsInSlash (h : IsPlainName name) (front : Bytes) :
    Path.endsInSlash (front ++ name) = false := by
  rw [Path.endsInSlash, decide_eq_false_iff_not, List.getLast?_append_of_ne_nil _ h.nonempty]
  intro hlast
  exact h.noSlash (List.mem_of_getLast? hlast)

theorem Path.steps_name (h : IsPlainName name) : Path.steps name = [name] := by
  have hslash := Path.not_endsInSlash h []
  rw [List.nil_append] at hslash
  rw [Path.steps, hslash, Path.written_name h]
  rfl

theorem Path.steps_behind (h : IsPlainName name) (element : Bytes) :
    Path.steps (element ++ Bytes.slash :: name) = Path.written element ++ [name] := by
  have hslash := Path.not_endsInSlash h (element ++ [Bytes.slash])
  rw [List.append_assoc, List.singleton_append] at hslash
  rw [Path.steps, hslash, Path.written_behind, Path.written_name h]
  exact List.append_nil _

theorem Path.isAbsolute_append (h : element ≠ []) (rest : Bytes) :
    Path.isAbsolute (element ++ rest) = Path.isAbsolute element := by
  cases element with
  | nil => exact absurd rfl h
  | cons b element => rfl

end

namespace Tree

variable {tree : Tree} {last : Bytes} {place : Place} {names : List Bytes} {name element : Bytes}
  {onLink : Place → List Bytes → Except Fault Found} {fault : Fault}

theorem walkWith_prolongs
    (hlast : ∀ place, ∃ left, tree.walkWith onLink place [last] = tree.walk left place [last])
    (hlink : ∀ start names,
      tree.Prolongs last (onLink start names) (onLink start (names ++ [last])))
    (place : Place) (names : List Bytes) :
    tree.Prolongs last (tree.walkWith onLink place names)
      (tree.walkWith onLink place (names ++ [last])) := by
  induction names generalizing place with
  | nil =>
    obtain ⟨left, hleft⟩ := hlast place
    rw [List.nil_append, hleft]
    exact .goesOn place left
  | cons name names ih =>
    rw [List.cons_append]
    unfold walkWith
    by_cases hdot : name = Path.dot
    · rw [if_pos hdot, if_pos hdot]
      exact ih place
    rw [if_neg hdot, if_neg hdot]
    by_cases hup : name = Path.dotDot
    · rw [if_pos hup, if_pos hup]
      exact ih place.parent
    rw [if_neg hup, if_neg hup]
    cases place with
    | removed above => exact .failed .noEntry
    | live path =>
      dsimp only
      by_cases hlong : longestName < name.length
      · rw [if_pos hlong, if_pos hlong]
        exact .failed .nameTooLong
      rw [if_neg hlong, if_neg hlong]
      have hmore : ¬ (names ++ [last]).isEmpty = true := by simp
      -- whether a file is the end of the walk hangs on the names behind it
      have hfile (entry : Entry) : tree.Prolongs last
          (if names.isEmpty then .ok (.leaf (path ++ [name]) entry) else .error .notDirectory)
          (if (names ++ [last]).isEmpty then .ok (.leaf (path ++ [name]) entry)
            else .error .notDirectory) := by
        rw [if_neg hmore]
        by_cases hnames : names.isEmpty = true
        · rw [if_pos hnames]
          exact .blocked _ entry
        · rw [if_neg hnames]
          exact .failed .notDirectory
      cases tree.find? (path ++ [name]) with
      | none => exact .failed .noEntry
      | some entry =>
        cases entry with
        | directory => exact ih _
        | link target =>
          dsimp only
          rw [← List.append_assoc]
          exact hlink _ _
        | file data executable => exact hfile (.file data executable)
        | program run => exact hfile (.program run)

theorem walk_prolongs (tree : Tree) (last : Bytes) (links : Nat) (place : Place)
    (names : List Bytes) :
    tree.Prolongs last (tree.walk links place names) (tree.walk links place (names ++ [last])) := by
  induction links generalizing place names with
  | zero =>
    refine walkWith_prolongs (fun place => ⟨0, rfl⟩) ?_ place names
    exact fun _ _ => .failed .linkLoop
  | succ links ih => exact walkWith_prolongs (fun place => ⟨links + 1, rfl⟩) ih place names

theorem walkWith_faults
    (hlink : ∀ start names fault, onLink start names = .error fault → fault.OfWalk)
    (h : tree.walkWith onLink place names = .error fault) : fault.OfWalk := by
  induction names generalizing place with
  | nil => cases h
  | cons name names ih =>
    unfold walkWith at h
    split at h
    · exact ih h
    · split at h
      · exact ih h
      · split at h
        · cases h
          exact .inl rfl
        · split at h
          · cases h
            exact .inr (.inr (.inl rfl))
          · split at h
            · cases h
              exact .inl rfl
            · exact ih h
            · exact hlink _ _ _ h
            · split at h
              · cases h
              · cases h
                exact .inr (.inl rfl)

theorem walk_faults {links : Nat} (h : tree.walk links place names = .error fault) :
    fault.OfWalk := by
  induction links generalizing place names fault with
  | zero =>
    refine walkWith_faults ?_ h
    intro _ _ fault hlink
    cases hlink
    exact .inr (.inr (.inr rfl))
  | succ links ih => exact walkWith_faults (fun _ _ _ hlink => ih hlink) h

theorem resolve_faults {cwd : Place} {path : Bytes} (h : tree.resolve cwd path = .error fault) :
    fault.OfWalk := by
  unfold resolve at h
  split at h
  · cases h
    exact .inl rfl
  · split at h
    · cases h
      exact .inr (.inr (.inl rfl))
    · exact walk_faults h

theorem walk_of_missing (hname : name.length ≤ longestName) (h : tree.holds name place = false)
    (links : Nat) : tree.walk links place [name] = .error .noEntry := by
  have hwalk (onLink : Place → List Bytes → Except Fault Found) :
      tree.walkWith onLink place [name] = .error .noEntry := by
    unfold walkWith
    cases place with
    | removed above =>
      simp only [holds, Bool.or_eq_false_iff, decide_eq_false_iff_not] at h
      rw [if_neg h.1, if_neg h.2]
    | live path =>
      simp only [holds, Bool.or_eq_false_iff, decide_eq_false_iff_not] at h
      obtain ⟨⟨hdot, hup⟩, hfind⟩ := h
      rw [Option.isSome_eq_false_iff, Option.isNone_iff_eq_none] at hfind
      rw [if_neg hdot, if_neg hup]
      dsimp only
      rw [if_neg (Nat.not_lt.mpr hname), hfind]
  cases links <;> exact hwalk _

theorem walk_dot (links : Nat) : tree.walk links place [Path.dot] = .ok (.directory place) :=
  walk_dots (by simp) place

theorem Prolongs.behind_dot {short dotted long : Except Fault Found}
    (hdot : tree.Prolongs Path.dot short dotted) (hlast : tree.Prolongs last short long) :
    tree.Prolongs last dotted long := by
  cases hdot with
  | failed fault => exact hlast
  | blocked path entry =>
    cases hlast
    exact .failed .notDirectory
  | goesOn found left =>
    rw [walk_dot]
    exact hlast

theorem steps_prolongs (tree : Tree) (last : Bytes) (links : Nat) (place : Place)
    (element : Bytes) :
    tree.Prolongs last (tree.walk links place (Path.steps element))
      (tree.walk links place (Path.written element ++ [last])) := by
  have hlast := tree.walk_prolongs last links place (Path.written element)
  rw [Path.steps]
  split
  · exact (tree.walk_prolongs Path.dot links place (Path.written element)).behind_dot hlast
  · rwa [List.append_nil]

end Tree

namespace World

variable {w : World} {name element : Bytes}

theorem candidate_ne_nil (h : IsPlainName name) (element : Bytes) :
    candidate element name ≠ [] := by
  unfold candidate
  split
  · exact h.nonempty
  · simp

theorem resolve_of_short {path : Bytes} (hne : path ≠ []) (hshort : path.length ≤ Tree.longestPath)
    (tree : Tree) (cwd : Place) :
    tree.resolve cwd path = tree.walk Tree.mostLinks (Tree.origin cwd path) (Path.steps path) := by
  rw [Tree.resolve, if_neg (by simpa using hne), if_neg (Nat.not_lt.mpr hshort)]

/-- To look for a name in what an element names is to walk one name further. -/
theorem named_prolongs (h : IsPlainName name)
    (hshort : (candidate element name).length ≤ Tree.longestPath) :
    w.tree.Prolongs name (w.named element) (w.tree.resolve w.cwd (candidate element name)) := by
  rw [resolve_of_short (candidate_ne_nil h element) hshort]
  unfold candidate at hshort ⊢
  by_cases hempty : element.isEmpty = true
  · have horigin : Tree.origin w.cwd name = w.cwd := by
      cases name with
      | nil => exact absurd rfl h.nonempty
      | cons b name =>
        have hb : b ≠ Bytes.slash := fun hb => h.noSlash (hb ▸ List.mem_cons_self)
        simp [Tree.origin, Path.isAbsolute, hb]
    rw [named, if_pos hempty, if_pos hempty, horigin, Path.steps_name h]
    exact .goesOn w.cwd Tree.mostLinks
  · rw [if_neg hempty] at hshort
    have hne : element ≠ [] := by simpa using hempty
    have hlength : element.length ≤ Tree.longestPath := by
      rw [List.length_append] at hshort
      omega
    have horigin : Tree.origin w.cwd (element ++ Bytes.slash :: name) =
        Tree.origin w.cwd element := by
      rw [Tree.origin, Path.isAbsolute_append hne, Tree.origin]
    rw [named, if_neg hempty, if_neg hempty, resolve_of_short hne hlength, horigin,
      Path.steps_behind h]
    exact w.tree.steps_prolongs name Tree.mostLinks _ element

theorem execPath_of_absent (h : IsPlainName name) (habsent : w.offers name element = false)
    (argv : List Bytes) :
    w.execPath (candidate element name) argv = .error (w.faultAt name element) := by
  have hne : ¬ (candidate element name).isEmpty = true := by
    simpa using candidate_ne_nil h element
  suffices hresolve : w.tree.resolve w.cwd (candidate element name) =
      .error (w.faultAt name element) by
    rw [execPath, image, if_neg hne, hresolve]
  unfold faultAt
  by_cases hlong : Tree.longestPath < (candidate element name).length
  · rw [Tree.resolve, if_neg hne, if_pos hlong, if_pos hlong]
  · rw [if_neg hlong]
    have hfound := named_prolongs (w := w) h (Nat.not_lt.mp hlong)
    unfold offers at habsent
    revert hfound habsent
    generalize w.named element = found
    generalize w.tree.resolve w.cwd (candidate element name) = candidateFound
    intro habsent hfound
    cases hfound with
    | failed fault => rfl
    | blocked path entry => rfl
    | goesOn found left => exact Tree.walk_of_missing h.short habsent left

theorem faultAt_ofWalk (w : World) (name element : Bytes) : (w.faultAt name element).OfWalk := by
  unfold faultAt
  split
  · exact .inr (.inr (.inl rfl))
  · split
    · exact .inl rfl
    · exact .inr (.inl rfl)
    · next fault hnamed =>
      unfold named at hnamed
      split at hnamed
      · cases hnamed
      · exact Tree.resolve_faults hnamed

theorem fateOf_cons (last fault : Fault) (faults : List Fault) :
    fateOf last (fault :: faults) = if passesOver fault then fateOf fault faults else fault := by
  rw [fateOf, List.getLastD_cons, List.find?_cons]
  cases passesOver fault <;> rfl

theorem fateOf_eq_noEntry_iff (faults : List Fault) :
    fateOf .noEntry faults = .noEntry ↔
      (∀ fault ∈ faults, passesOver fault = true) ∧
        ∀ fault ∈ faults.getLast?, fault = .noEntry := by
  unfold fateOf
  cases hfind : faults.find? (!passesOver ·) with
  | some fault =>
    have hmem := List.mem_of_find?_eq_some hfind
    have hstops : passesOver fault = false := by simpa using List.find?_some hfind
    refine iff_of_false ?_ ?_
    · rintro rfl
      cases hstops
    · rintro ⟨hpasses, _⟩
      rw [hpasses fault hmem] at hstops
      cases hstops
  | none =>
    have hpasses : ∀ fault ∈ faults, passesOver fault = true := by
      simpa using List.find?_eq_none.mp hfind
    rw [List.getLastD_eq_getLast?]
    cases hlast : faults.getLast? with
    | none => simpa using hpasses
    | some fault => simpa using fun _ => hpasses

theorem search_of_failed {argv : List Bytes} {denied : Bool} {last fault : Fault}
    {rest : List Bytes}
    (hcounts : ¬ (Tree.longestPath < element.length && rest.isEmpty) = true)
    (hfails : w.execPath (candidate (shortened element) name) argv = .error fault)
    (hne : fault ≠ .accessDenied) :
    w.search argv name denied last (element :: rest) =
      if passesOver fault then w.search argv name denied fault rest else .error fault := by
  have hdenied : decide (fault = .accessDenied) = false := decide_eq_false hne
  unfold shortened at hfails
  rw [search, if_neg hcounts, hfails]
  dsimp only
  rw [hdenied, Bool.or_false]

theorem search_of_absent (h : IsPlainName name) (argv : List Bytes) {elements : List Bytes}
    (habsent : ∀ element ∈ tried elements, w.offers name element = false) (last : Fault) :
    w.search argv name false last elements =
      .error (fateOf last ((tried elements).map (w.faultAt name))) := by
  induction elements generalizing last with
  | nil => rfl
  | cons element rest ih =>
    rw [tried] at habsent ⊢
    by_cases hcounts : (Tree.longestPath < element.length && rest.isEmpty) = true
    · obtain ⟨_, hempty⟩ := Bool.and_eq_true_iff.mp hcounts
      rw [List.isEmpty_iff] at hempty
      rw [if_pos hcounts, search, if_pos hcounts, hempty]
      rfl
    · rw [if_neg hcounts] at habsent ⊢
      obtain ⟨hfirst, hrest⟩ := List.forall_mem_cons.mp habsent
      rw [search_of_failed hcounts (execPath_of_absent h hfirst argv)
        (faultAt_ofWalk w name _).ne_accessDenied, ih hrest, List.map_cons, fateOf_cons]
      split <;> rfl

theorem exec_of_absent (h : IsPlainName name)
    (habsent : ∀ element ∈ tried w.searchPath, w.offers name element = false)
    (arguments : List Bytes) : w.exec name arguments = .error (w.absence name arguments) := by
  have hnul : name.hasNul = false := hasNul_eq_false_iff.mpr h.noNul
  have hslash : name.contains Bytes.slash = false := by
    simpa using h.noSlash
  have hname : name.take (Tree.longestName + 1) = name :=
    List.take_of_length_le (Nat.le_succ_of_le h.short)
  have hne : ¬ name.isEmpty = true := by simpa using h.nonempty
  rw [exec, absence, List.any_cons, hnul, Bool.false_or, hname, if_neg hne, hslash]
  by_cases hany : arguments.any Bytes.hasNul = true
  · rw [if_pos hany, if_pos hany]
  · rw [if_neg hany, if_neg hany]
    exact search_of_absent h (name :: arguments) habsent .noEntry

/-- The search for a name that no element offers meets nothing in the end: each element lets the
next one be tried, and the last leads to a directory or to nothing. -/
structure MeetsNothing (w : World) (name : Bytes) : Prop where
  passes : ∀ element ∈ tried w.searchPath, passesOver (w.faultAt name element) = true
  last : ∀ element ∈ (tried w.searchPath).getLast?, w.faultAt name element = .noEntry

theorem absence_eq_noEntry_iff {arguments : List Bytes} :
    w.absence name arguments = .noEntry ↔
      (∀ word ∈ arguments, 0 ∉ word) ∧ w.MeetsNothing name := by
  have hnul : arguments.any Bytes.hasNul = false ↔ ∀ word ∈ arguments, 0 ∉ word := by
    simp [List.any_eq_false, ← hasNul_iff]
  unfold absence
  split
  · next hany =>
    refine iff_of_false (by decide) ?_
    rintro ⟨hfree, _⟩
    rw [hnul.mpr hfree] at hany
    cases hany
  · next hfree =>
    rw [Bool.not_eq_true] at hfree
    have hmap (last : Option Bytes) : (∀ fault ∈ last.map (w.faultAt name), fault = .noEntry) ↔
        ∀ element ∈ last, w.faultAt name element = .noEntry := by
      cases last <;> simp
    rw [fateOf_eq_noEntry_iff, ← hnul, List.forall_mem_map, List.getLast?_map, hmap]
    constructor
    · rintro ⟨hpasses, hlast⟩
      exact ⟨hfree, hpasses, hlast⟩
    · rintro ⟨_, hpasses, hlast⟩
      exact ⟨hpasses, hlast⟩

theorem fateOf_mem (last : Fault) (faults : List Fault) :
    fateOf last faults = last ∨ fateOf last faults ∈ faults := by
  induction faults generalizing last with
  | nil => exact .inl rfl
  | cons fault faults ih =>
    rw [fateOf_cons]
    split
    · rcases ih fault with hfate | hfate
      · rw [hfate]
        exact .inr List.mem_cons_self
      · exact .inr (List.mem_cons_of_mem fault hfate)
    · exact .inr List.mem_cons_self

theorem absence_cases (w : World) (name : Bytes) (arguments : List Bytes) :
    w.absence name arguments = nulInArgument ∨ (w.absence name arguments).OfWalk := by
  unfold absence
  split
  · exact .inl rfl
  · right
    rcases fateOf_mem .noEntry ((tried w.searchPath).map (w.faultAt name)) with hfate | hfate
    · exact .inl hfate
    · obtain ⟨element, _, hfault⟩ := List.mem_map.mp hfate
      exact hfault ▸ faultAt_ofWalk w name element

end World

section
variable {fault : Fault} {command : String}

theorem ofSpawn_eq_notFound_iff (h : fault = World.nulInArgument ∨ fault.OfWalk) :
    ProcessError.ofSpawn command fault = .notFound command ↔ fault = .noEntry := by
  rcases h with rfl | rfl | rfl | rfl | rfl <;>
    simp [ProcessError.ofSpawn, Fault.saysNotFound, Fault.saysDenied, World.nulInArgument,
      Fault.noEntry, Fault.notDirectory, Fault.nameTooLong, Fault.linkLoop]

theorem ofSpawn_of_ne_noEntry (h : fault = World.nulInArgument ∨ fault.OfWalk)
    (hne : fault ≠ .noEntry) : ProcessError.ofSpawn command fault = .spawn command fault := by
  rcases h with rfl | rfl | rfl | rfl | rfl
  · rfl
  · exact absurd rfl hne
  · rfl
  · rfl
  · rfl

end

section
variable {shell : Shell} {s : Session} {line name : Bytes} {arguments : List Bytes} {fault : Fault}

theorem executeLine_of_unstarted (ho : s.out.TakesAll) (he : s.err.TakesAll)
    (tokens : (tokenize line).tokens = name :: arguments) (external : Builtin.ofName? name = none)
    (exec : s.world.exec name arguments = .error fault) :
    let turn : Step ShellError Status := shell.executeLine line s
    turn.result = .ok .proceed ∧ turn.session.world = s.world ∧
      diagnosed turn.events =
        shell.message line (.process (.ofSpawn (Utf8.lossy name) fault)) := by
  intro turn
  refine ⟨?_, ?_, ?_⟩
  · have hname := TokenList.command?_eq_some_iff.mpr ⟨_, tokens⟩
    have hstays : asksToExit line = false := by
      rw [asksToExit, decide_eq_false_iff_not, hname]
      intro hexit
      cases Option.some.inj hexit
      cases external
    have hresult : turn.result = _ := executeLine_result shell line s
    rw [hresult, hstays]
    rfl
  · have hlaunch := launch_of_refused (s := { s with out := s.out.flush.2 }) tokens exec
    have hworld : turn.session.world = _ := executeLine_world shell line s
    rw [hworld, execute_of_failed tokens external ho.flush_none hlaunch]
  · exact (executeLine_tells shell ho he line).refused _
      (.launch tokens external (.unstarted exec))

end

/-- A command that is no built-in and that no directory of the search path holds is not started, and
nothing else comes of it. It is said not to be found exactly if its arguments can be handed over and
the search for it meets nothing in the end; or else it is said to fail with the fault that ended the
search. The loop reports it and goes on. -/
theorem absent_command_fails_as_its_search_ends (shell : Shell) (s : Session) (list : TokenList)
    (name : Bytes) (arguments : List Bytes) (htokens : list.tokens = name :: arguments)
    (hexternal : Builtin.ofName? name = none) (hname : IsPlainName name)
    (habsent : ∀ element ∈ World.tried s.world.searchPath,
      s.world.offers name element = false) :
    let fault := s.world.absence name arguments
    let error := ProcessError.ofSpawn (Utf8.lossy name) fault
    launch list s = ⟨.error error, [.requested list.tokens], s⟩ ∧
    (error = .notFound (Utf8.lossy name) ↔
      (∀ word ∈ arguments, 0 ∉ word) ∧ s.world.MeetsNothing name) ∧
    (error ≠ .notFound (Utf8.lossy name) → error = .spawn (Utf8.lossy name) fault) ∧
    (s.out.TakesAll → s.err.TakesAll → ∀ line, tokenize line = list →
      let turn : Step ShellError Status := shell.executeLine line s
      turn.result = .ok .proceed ∧ turn.session.world = s.world ∧
        diagnosed turn.events = shell.message line (.process error)) := by
  intro fault error
  have hexec : s.world.exec name arguments = .error fault :=
    World.exec_of_absent hname habsent arguments
  have hcases := s.world.absence_cases name arguments
  have hfound : error = .notFound (Utf8.lossy name) ↔ fault = .noEntry :=
    ofSpawn_eq_notFound_iff hcases
  refine ⟨?_, ?_, ?_, ?_⟩
  · rw [launch_of_refused htokens hexec, htokens]
  · exact hfound.trans World.absence_eq_noEntry_iff
  · intro hne
    exact ofSpawn_of_ne_noEntry hcases fun hfault => hne (hfound.mpr hfault)
  · rintro ho he line rfl
    exact executeLine_of_unstarted ho he htokens hexternal hexec

/-- On the search path are the working directory, a file, nothing and, at last, a directory. -/
theorem absent_command_is_not_found_at_last :
    let s : Session := ⟨Machine.world [("PATH", ":/bin/true:none/:/tmp")], .accepting, .accepting⟩
    let shell := Shell.mk "$ " .plain
    let line := Bytes.ofString "nope a\n"
    let turn : Step ShellError Status := shell.executeLine line s
    (tokenize line).tokens = [Bytes.ofString "nope", Bytes.ofString "a"] ∧
    Builtin.ofName? (Bytes.ofString "nope") = none ∧ IsPlainName (Bytes.ofString "nope") ∧
    (∀ element ∈ World.tried s.world.searchPath,
      s.world.offers (Bytes.ofString "nope") element = false) ∧
    ProcessError.ofSpawn "nope" (s.world.absence (Bytes.ofString "nope") [Bytes.ofString "a"]) =
      .notFound "nope" ∧
    turn.result = .ok .proceed ∧
    diagnosed turn.events = Bytes.ofString "nope: command not found\n" := by
  intro s shell line turn
  have htokens : (tokenize line).tokens = [Bytes.ofString "nope", Bytes.ofString "a"] := by decide
  have hexternal : Builtin.ofName? (Bytes.ofString "nope") = none := by decide
  have hname : IsPlainName (Bytes.ofString "nope") := by constructor <;> decide
  have habsent : ∀ element ∈ World.tried s.world.searchPath,
      s.world.offers (Bytes.ofString "nope") element = false := by decide +kernel
  have hpasses : ∀ word ∈ [Bytes.ofString "a"], 0 ∉ word := by decide
  have hnothing : s.world.MeetsNothing (Bytes.ofString "nope") :=
    ⟨by decide +kernel, by decide +kernel⟩
  obtain ⟨_, hfound, _, hturn⟩ := absent_command_fails_as_its_search_ends shell s (tokenize line)
    (Bytes.ofString "nope") [Bytes.ofString "a"] htokens hexternal hname habsent
  have herror := hfound.mpr ⟨hpasses, hnothing⟩
  obtain ⟨hresult, _, htold⟩ :=
    hturn Channel.accepting_takesAll Channel.accepting_takesAll line rfl
  refine ⟨htokens, hexternal, hname, habsent, herror, hresult, htold.trans ?_⟩
  rw [herror]
  decide

/-- No directory of either search path holds the command. Where a file comes last, it is not said
that it was not found; with the same elements the other way around, it is. -/
theorem absent_command_fails_to_start :
    let sessionAt (searchPath : String) : Session :=
      ⟨Machine.world [("PATH", searchPath)], .accepting, .accepting⟩
    let name := Bytes.ofString "nope"
    let told (searchPath : String) : Bytes :=
      diagnosed ((Shell.mk "$ " .plain).executeLine name (sessionAt searchPath) :
        Step ShellError Status).events
    IsPlainName name ∧ Builtin.ofName? name = none ∧
    (∀ searchPath ∈ ["/bin:/bin/true", "/bin/true:/bin"],
      ∀ element ∈ (sessionAt searchPath).world.searchPath,
        (sessionAt searchPath).world.offers name element = false) ∧
    (launch (.ofList [name]) (sessionAt "/bin:/bin/true")).result =
      .error (.spawn "nope" .notDirectory) ∧
    told "/bin:/bin/true" =
      Bytes.ofString "nope: failed to start: Not a directory (os error 20)\n" ∧
    told "/bin/true:/bin" = Bytes.ofString "nope: command not found\n" := by
  refine ⟨?_, ?_, ?_⟩
  · constructor <;> decide
  · decide
  · decide +kernel

end LineShell
