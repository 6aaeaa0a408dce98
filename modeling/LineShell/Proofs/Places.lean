import LineShell.Child.Life

/-!
# Places and what changes them

Walking from a directory that exists leads to one that exists. Besides walking, a process comes to
be elsewhere only if the directory that it sits in, or one above, is removed or renamed; and a child
that asks for no such thing leaves its parent where it was.
-/
namespace LineShell
namespace Place

def IsLive (place : Place) : Prop := ∃ path, place = live path

theorem IsLive.parent {place : Place} (h : place.IsLive) : place.parent.IsLive := by
  obtain ⟨path, rfl⟩ := h
  exact ⟨path.dropLast, rfl⟩

theorem root_isLive : root.IsLive := ⟨[], rfl⟩

theorem afterRemoval_eq {place : Place} {gone : Path} (h : place.IsLive)
    (hne : ∀ path ∈ place.path?, path ≠ gone) : place.afterRemoval gone = place := by
  obtain ⟨path, rfl⟩ := h
  exact if_neg (hne path rfl)

theorem rebase_eq {place : Place} {source target : Path} (h : place.IsLive)
    (hne : ∀ path ∈ place.path?, ¬ source <+: path) : place.rebase source target = place := by
  obtain ⟨path, rfl⟩ := h
  have hprefix : ¬ source.isPrefixOf path = true := by
    simpa [List.isPrefixOf_iff_prefix] using hne path rfl
  simp [rebase, Path.rebase, hprefix]

end Place

namespace Tree

variable {tree : Tree} {P : Place → Prop} {place : Place} {names : List Bytes} {found : Place}

/-- The steps of a walk: back to the root, up, and down into a directory. -/
structure Carries (tree : Tree) (P : Place → Prop) : Prop where
  root : P .root
  up : ∀ place, P place → P place.parent
  down : ∀ path name, P (.live path) → tree.find? (path ++ [name]) = some .directory →
    P (.live (path ++ [name]))

theorem walkWith_keeps {onLink : Place → List Bytes → Except Fault Found} (hP : tree.Carries P)
    (hlink : ∀ {start names found}, P start → onLink start names = .ok (.directory found) → P found)
    (hplace : P place) (h : tree.walkWith onLink place names = .ok (.directory found)) :
    P found := by
  induction names generalizing place with
  | nil =>
    cases h
    exact hplace
  | cons name names ih =>
    unfold walkWith at h
    split at h
    · exact ih hplace h
    · split at h
      · exact ih (hP.up place hplace) h
      · split at h
        · cases h
        · next path =>
          split at h
          · cases h
          · split at h
            · cases h
            · next hfind => exact ih (hP.down path name hplace hfind) h
            · next target _ =>
              refine hlink ?_ h
              split
              · exact hP.root
              · exact hplace
            · split at h <;> cases h

theorem walk_keeps {links : Nat} (hP : tree.Carries P) (hplace : P place)
    (h : tree.walk links place names = .ok (.directory found)) : P found := by
  induction links generalizing place names found with
  | zero => exact walkWith_keeps hP (fun _ hlink => by cases hlink) hplace h
  | succ links ih => exact walkWith_keeps hP (fun hstart h => ih hstart h) hplace h

theorem resolve_keeps {cwd : Place} {path : Bytes} (hP : tree.Carries P) (hcwd : P cwd)
    (h : tree.resolve cwd path = .ok (.directory found)) : P found := by
  unfold resolve at h
  split at h
  · cases h
  · split at h
    · cases h
    · refine walk_keeps hP ?_ h
      unfold origin
      split
      · exact hP.root
      · exact hcwd

theorem carries_isLive (tree : Tree) : tree.Carries Place.IsLive where
  root := Place.root_isLive
  up _ := Place.IsLive.parent
  down _ _ _ _ := ⟨_, rfl⟩

end Tree

namespace World

variable {w w' : World} {path source target : Bytes}

theorem moveTo_eq (h : w.moveTo path = .ok w') :
    ∃ place, w.tree.resolve w.cwd path = .ok (.directory place) ∧ w' = { w with cwd := place } := by
  unfold moveTo at h
  split at h
  · cases h
  · split at h
    · next place hfound =>
      cases h
      exact ⟨place, hfound, rfl⟩
    · cases h
    · cases h

theorem moveTo_vars (h : w.moveTo path = .ok w') : w'.vars = w.vars := by
  obtain ⟨place, _, rfl⟩ := moveTo_eq h
  rfl

theorem moveTo_keeps {P : Place → Prop} (hP : w.tree.Carries P) (hcwd : P w.cwd)
    (h : w.moveTo path = .ok w') : P w'.cwd := by
  obtain ⟨place, hfound, rfl⟩ := moveTo_eq h
  exact Tree.resolve_keeps hP hcwd hfound

theorem moveTo_isLive (hcwd : w.cwd.IsLive) (h : w.moveTo path = .ok w') : w'.cwd.IsLive :=
  moveTo_keeps w.tree.carries_isLive hcwd h

def aim? (w : World) (path : Bytes) : Option Path :=
  (w.holder? path).map fun (above, name) => above ++ [name]

theorem makeDirectory_eq (h : w.makeDirectory path = some w') :
    ∃ tree, w' = { w with tree := tree } := by
  obtain ⟨_, _, h⟩ := Option.bind_eq_some_iff.mp h
  obtain ⟨_, _, h⟩ := Option.bind_eq_some_iff.mp h
  exact ⟨_, (Option.some.inj h).symm⟩

theorem removeDirectory_eq (h : w.removeDirectory path = some w') :
    ∃ gone, w.aim? path = some gone ∧ w' = w.dropDirectory gone := by
  obtain ⟨⟨above, name⟩, hholder, h⟩ := Option.bind_eq_some_iff.mp h
  obtain ⟨_, _, h⟩ := Option.bind_eq_some_iff.mp h
  obtain ⟨_, _, h⟩ := Option.bind_eq_some_iff.mp h
  exact ⟨above ++ [name], by simp [aim?, hholder], (Option.some.inj h).symm⟩

/-- A rename that changes anything may first remove what it takes the place of. -/
theorem rename_eq (h : w.rename source target = some w') :
    ∃ old new, w.aim? source = some old ∧ w.aim? target = some new ∧
      (w' = w ∨ old ≠ new ∧ ∃ cleared tree,
        (cleared = w ∨ (w.tree.find? new).isSome ∧ cleared = w.dropDirectory new) ∧
        w' = { cleared with tree := tree, cwd := cleared.cwd.rebase old new }) := by
  -- both paths end in a name that can be moved, and there is something at the first
  obtain ⟨⟨above, name⟩, hsource, h⟩ := Option.bind_eq_some_iff.mp h
  obtain ⟨⟨above', name'⟩, htarget, h⟩ := Option.bind_eq_some_iff.mp h
  obtain ⟨_, _, h⟩ := Option.bind_eq_some_iff.mp h
  obtain ⟨_, _, h⟩ := Option.bind_eq_some_iff.mp h
  refine ⟨above ++ [name], above' ++ [name'], by simp [aim?, hsource], by simp [aim?, htarget], ?_⟩
  by_cases hsame : above ++ [name] = above' ++ [name']
  · exact .inl (Option.some.inj ((if_pos hsame).symm.trans h)).symm
  · obtain ⟨_, _, h⟩ := Option.bind_eq_some_iff.mp ((if_neg hsame).symm.trans h)
    split at h
    · exact .inr ⟨hsame, w, _, .inl rfl, (Option.some.inj h).symm⟩
    · next there hthere =>
      split at h
      · cases h
      · exact .inr ⟨hsame, _, _, .inr ⟨by simp [hthere], rfl⟩, (Option.some.inj h).symm⟩

/-- What a request at a path would take away is not the working directory, nor a directory above. -/
def Spares (w : World) (taken : Path) : Prop :=
  ∀ path ∈ w.cwd.path?, ¬ taken <+: path

instance (w : World) (taken : Path) : Decidable (w.Spares taken) :=
  inferInstanceAs (Decidable (∀ path ∈ w.cwd.path?, ¬ taken <+: path))

end World

/-- No request that is granted to the child takes away its working directory or one above. -/
def Script.Spares : Script → World → Prop
  | .exit _, _ | .die _ _, _ => True
  | .stop _ next, w | .write _ _ next, w => next.Spares w
  | .readInput next, w => (next w.childInput).Spares { w with childInput := [] }
  | .askDirectory next, w => (next w.workingDirectory.toOption).Spares w
  | .makeDirectory path next, w =>
    (next (w.makeDirectory path).isSome).Spares (w.granted (w.makeDirectory path))
  | .removeDirectory path next, w =>
    ((w.removeDirectory path).isSome → ∀ gone ∈ w.aim? path, w.Spares gone) ∧
      (next (w.removeDirectory path).isSome).Spares (w.granted (w.removeDirectory path))
  | .rename source target next, w =>
    ((w.rename source target).isSome → ∀ old ∈ w.aim? source, ∀ new ∈ w.aim? target, old ≠ new →
        w.Spares old ∧ ((w.tree.find? new).isSome → w.Spares new)) ∧
      (next (w.rename source target).isSome).Spares (w.granted (w.rename source target))

instance Script.decidableSpares : (script : Script) → (w : World) → Decidable (script.Spares w)
  | .exit _, _ | .die _ _, _ => isTrue trivial
  | .stop _ next, w | .write _ _ next, w => decidableSpares next w
  | .readInput next, w => decidableSpares (next w.childInput) { w with childInput := [] }
  | .askDirectory next, w => decidableSpares (next w.workingDirectory.toOption) w
  | .makeDirectory path next, w =>
    decidableSpares (next (w.makeDirectory path).isSome) (w.granted (w.makeDirectory path))
  | .removeDirectory path next, w =>
    have := decidableSpares (next (w.removeDirectory path).isSome)
      (w.granted (w.removeDirectory path))
    inferInstanceAs (Decidable (_ ∧ _))
  | .rename source target next, w =>
    have := decidableSpares (next (w.rename source target).isSome)
      (w.granted (w.rename source target))
    inferInstanceAs (Decidable (_ ∧ _))

namespace World

variable {w w' : World} {path source target : Bytes}

theorem cwd_isLive_iff : w.cwd.IsLive ↔ ∃ path, w.workingDirectory = .ok path := by
  unfold workingDirectory Place.IsLive
  cases w.cwd <;> simp [Place.path?]

theorem dropDirectory_cwd {gone : Path} (hcwd : w.cwd.IsLive) (h : w.Spares gone) :
    (w.dropDirectory gone).cwd = w.cwd :=
  Place.afterRemoval_eq hcwd fun path hpath heq => h path hpath (heq ▸ List.prefix_rfl)

theorem removeDirectory_cwd (hcwd : w.cwd.IsLive) (h : w.removeDirectory path = some w')
    (hspares : ∀ gone ∈ w.aim? path, w.Spares gone) : w'.cwd = w.cwd := by
  obtain ⟨gone, haim, rfl⟩ := removeDirectory_eq h
  exact dropDirectory_cwd hcwd (hspares gone haim)

theorem rename_cwd (hcwd : w.cwd.IsLive) (h : w.rename source target = some w')
    (hspares : ∀ old ∈ w.aim? source, ∀ new ∈ w.aim? target, old ≠ new →
      w.Spares old ∧ ((w.tree.find? new).isSome → w.Spares new)) : w'.cwd = w.cwd := by
  obtain ⟨old, new, hold, hnew, rfl | ⟨hne, cleared, tree, hcleared, rfl⟩⟩ := rename_eq h
  · rfl
  · obtain ⟨hspareOld, hspareNew⟩ := hspares old hold new hnew hne
    have hstays : cleared.cwd = w.cwd := by
      rcases hcleared with rfl | ⟨hthere, rfl⟩
      · rfl
      · exact dropDirectory_cwd hcwd (hspareNew hthere)
    change cleared.cwd.rebase old new = w.cwd
    rw [hstays]
    exact Place.rebase_eq hcwd hspareOld

theorem granted_eq {request : Option World} {P : World → Prop} (hw : P w)
    (h : ∀ w', request = some w' → P w') : P (w.granted request) := by
  cases request with
  | none => exact hw
  | some w' => exact h w' rfl

theorem live_vars (script : Script) (w : World) : (live script w).2.vars = w.vars := by
  induction script generalizing w with
  | exit | die => rfl
  | stop _ next ih | write _ _ next ih => exact ih w
  | readInput next ih => exact ih _ _
  | askDirectory next ih => exact ih _ w
  | makeDirectory path next ih =>
    refine (ih _ _).trans (granted_eq (P := (·.vars = w.vars)) rfl fun w' h => ?_)
    obtain ⟨tree, rfl⟩ := makeDirectory_eq h
    rfl
  | removeDirectory path next ih =>
    refine (ih _ _).trans (granted_eq (P := (·.vars = w.vars)) rfl fun w' h => ?_)
    obtain ⟨gone, _, rfl⟩ := removeDirectory_eq h
    rfl
  | rename source target next ih =>
    refine (ih _ _).trans (granted_eq (P := (·.vars = w.vars)) rfl fun w' h => ?_)
    obtain ⟨_, _, _, _, rfl | ⟨_, cleared, _, rfl | ⟨_, rfl⟩, rfl⟩⟩ := rename_eq h <;> rfl

theorem live_cwd (script : Script) (w : World) (hcwd : w.cwd.IsLive) (h : script.Spares w) :
    (live script w).2.cwd = w.cwd := by
  induction script generalizing w with
  | exit | die => rfl
  | stop _ next ih | write _ _ next ih => exact ih w hcwd h
  | readInput next ih => exact ih _ _ hcwd h
  | askDirectory next ih => exact ih _ w hcwd h
  | makeDirectory path next ih =>
    have hstays : (w.granted (w.makeDirectory path)).cwd = w.cwd := by
      refine granted_eq (P := (·.cwd = w.cwd)) rfl fun w' hgranted => ?_
      obtain ⟨tree, rfl⟩ := makeDirectory_eq hgranted
      rfl
    exact (ih _ _ (hstays ▸ hcwd) h).trans hstays
  | removeDirectory path next ih =>
    have hstays : (w.granted (w.removeDirectory path)).cwd = w.cwd :=
      granted_eq (P := (·.cwd = w.cwd)) rfl fun w' hgranted =>
        removeDirectory_cwd hcwd hgranted (h.1 (by simp [hgranted]))
    exact (ih _ _ (hstays ▸ hcwd) h.2).trans hstays
  | rename source target next ih =>
    have hstays : (w.granted (w.rename source target)).cwd = w.cwd :=
      granted_eq (P := (·.cwd = w.cwd)) rfl fun w' hgranted =>
        rename_cwd hcwd hgranted (h.1 (by simp [hgranted]))
    exact (ih _ _ (hstays ▸ hcwd) h.2).trans hstays

end World
end LineShell
