import LineShell.Proofs.Places

/-!
# What children do to the file tree

Of all that a child asks for, three kinds of request change the file tree: a directory is made, one
is removed, something is moved. What is granted can be written down in order, and from that alone it
can be told where a directory has come to be that was at a place before.
-/
namespace LineShell

inductive Rearrangement where
  | made (path : Path)
  | removed (path : Path)
  | moved (source target : Path)
  deriving DecidableEq, Repr

namespace Rearrangement

def onTree (tree : Tree) : Rearrangement → Tree
  | made path => tree.put path .directory
  | removed path => tree.erase path
  | moved source target => tree.move source target

/-- Where a directory is to be found that was at a place before. It goes along with those above it,
and once it is removed it stays so. -/
def onPlace (place : Place) : Rearrangement → Place
  | made _ => place
  | removed path => place.afterRemoval path
  | moved source target => place.rebase source target

end Rearrangement

namespace World

/-- The world with its file tree rearranged. Who sits in a directory stays in it, wherever that is
now to be found. -/
def rearranged (w : World) (changes : List Rearrangement) : World :=
  { w with
    tree := changes.foldl Rearrangement.onTree w.tree
    cwd := changes.foldl Rearrangement.onPlace w.cwd }

def making (w : World) (path : Bytes) : List Rearrangement :=
  if (w.makeDirectory path).isSome then (w.aim? path).toList.map .made else []

def removing (w : World) (path : Bytes) : List Rearrangement :=
  if (w.removeDirectory path).isSome then (w.aim? path).toList.map .removed else []

def moving (w : World) (source target : Bytes) : List Rearrangement :=
  match w.rename source target, w.aim? source, w.aim? target with
  | some _, some old, some new =>
    if old = new then []
    else if (w.tree.find? new).isSome then [.removed new, .moved old new]
    else [.moved old new]
  | _, _, _ => []

variable {w : World} {path source target : Bytes}

theorem rearranged_append (w : World) (before after : List Rearrangement) :
    w.rearranged (before ++ after) = (w.rearranged before).rearranged after := by
  simp only [rearranged, List.foldl_append]

theorem granted_making (w : World) (path : Bytes) :
    w.granted (w.makeDirectory path) = w.rearranged (w.making path) := by
  unfold making
  cases h : w.makeDirectory path with
  | none => rfl
  | some w' =>
    obtain ⟨⟨above, name⟩, hholder, h⟩ := Option.bind_eq_some_iff.mp h
    obtain ⟨_, _, h⟩ := Option.bind_eq_some_iff.mp h
    cases Option.some.inj h
    have haim : w.aim? path = some (above ++ [name]) := by simp [aim?, hholder]
    rw [haim]
    rfl

theorem granted_removing (w : World) (path : Bytes) :
    w.granted (w.removeDirectory path) = w.rearranged (w.removing path) := by
  unfold removing
  cases h : w.removeDirectory path with
  | none => rfl
  | some w' =>
    obtain ⟨gone, haim, rfl⟩ := removeDirectory_eq h
    rw [haim]
    rfl

theorem granted_moving (w : World) (source target : Bytes) :
    w.granted (w.rename source target) = w.rearranged (w.moving source target) := by
  unfold moving
  cases h : w.rename source target with
  | none => rfl
  | some w' =>
    obtain ⟨⟨above, name⟩, hsource, h⟩ := Option.bind_eq_some_iff.mp h
    obtain ⟨⟨above', name'⟩, htarget, h⟩ := Option.bind_eq_some_iff.mp h
    obtain ⟨_, _, h⟩ := Option.bind_eq_some_iff.mp h
    obtain ⟨_, _, h⟩ := Option.bind_eq_some_iff.mp h
    have hold : w.aim? source = some (above ++ [name]) := by simp [aim?, hsource]
    have hnew : w.aim? target = some (above' ++ [name']) := by simp [aim?, htarget]
    rw [hold, hnew]
    dsimp only
    by_cases hsame : above ++ [name] = above' ++ [name']
    · rw [if_pos hsame]
      exact (Option.some.inj ((if_pos hsame).symm.trans h)).symm
    · obtain ⟨_, _, h⟩ := Option.bind_eq_some_iff.mp ((if_neg hsame).symm.trans h)
      rw [if_neg hsame]
      -- what is at the target decides whether it is removed first
      cases hthere : w.tree.find? (above' ++ [name']) with
      | none =>
        rw [hthere] at h
        exact (Option.some.inj h).symm
      | some there =>
        rw [hthere] at h
        dsimp only at h
        split at h
        · cases h
        · exact (Option.some.inj h).symm

end World

def Script.changes : Script → World → List Rearrangement
  | .exit _, _ | .die _ _, _ => []
  | .stop _ next, w | .write _ _ next, w => next.changes w
  | .readInput next, w => (next w.childInput).changes { w with childInput := [] }
  | .askDirectory next, w => (next w.workingDirectory.toOption).changes w
  | .makeDirectory path next, w =>
    w.making path ++
      (next (w.makeDirectory path).isSome).changes (w.granted (w.makeDirectory path))
  | .removeDirectory path next, w =>
    w.removing path ++
      (next (w.removeDirectory path).isSome).changes (w.granted (w.removeDirectory path))
  | .rename source target next, w =>
    w.moving source target ++
      (next (w.rename source target).isSome).changes (w.granted (w.rename source target))

/-- A child changes the file tree and nothing else, apart from the input that it reads. -/
theorem World.live_rearranges (script : Script) (w : World) :
    ∃ input, (live script w).2 =
      { w.rearranged (script.changes w) with childInput := input } := by
  induction script generalizing w with
  | exit | die => exact ⟨w.childInput, rfl⟩
  | stop _ next ih | write _ _ next ih => exact ih w
  | readInput next ih =>
    obtain ⟨input, hrest⟩ := ih w.childInput { w with childInput := [] }
    exact ⟨input, hrest⟩
  | askDirectory next ih => exact ih _ w
  | makeDirectory path next ih =>
    obtain ⟨input, hrest⟩ := ih (w.makeDirectory path).isSome (w.granted (w.makeDirectory path))
    refine ⟨input, hrest.trans ?_⟩
    rw [Script.changes, rearranged_append, ← granted_making]
  | removeDirectory path next ih =>
    obtain ⟨input, hrest⟩ :=
      ih (w.removeDirectory path).isSome (w.granted (w.removeDirectory path))
    refine ⟨input, hrest.trans ?_⟩
    rw [Script.changes, rearranged_append, ← granted_removing]
  | rename source target next ih =>
    obtain ⟨input, hrest⟩ :=
      ih (w.rename source target).isSome (w.granted (w.rename source target))
    refine ⟨input, hrest.trans ?_⟩
    rw [Script.changes, rearranged_append, ← granted_moving]

end LineShell
