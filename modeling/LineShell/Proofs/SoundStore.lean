import LineShell.Proofs.CommandEffects
import LineShell.Proofs.VariableStore

/-!
# A store that stays sound

The system's store aborts the process when it is given a name or a value that it cannot hold. There
are two places that give it one: `setVar`, which looks at the name and the value first, and
`changeDir`, which gives it `PWD` and the path that the system reports. Whatever is asked of the
shell, and in whatever order, nothing else reaches the store, so it keeps its shape and is never
given what it cannot hold.
-/
namespace LineShell

open Act (MadeOf)
open Event (IsOffer)

/-- A name that the store can hold. -/
structure IsName (name : Bytes) : Prop where
  nonempty : name ≠ []
  noEquals : Bytes.equals ∉ name
  noNul : 0 ∉ name

/-- What the store takes without aborting. -/
structure Variable.Storable (v : Variable) : Prop where
  name : IsName v.name
  value : 0 ∉ v.value

/-- No name is there twice, and all are such as the store can hold. -/
structure Variables.Named (vars : Variables) : Prop where
  distinct : vars.names.Nodup
  isName : ∀ n ∈ vars.names, IsName n

structure Variables.Sound (vars : Variables) : Prop where
  distinct : vars.names.Nodup
  storable : ∀ v ∈ vars, v.Storable

/-- The second store is the first with a name bound to a value, and not otherwise changed. -/
structure Rebinds (name value : Bytes) (before after : Variables) : Prop where
  bound : after.valueOf? name = some value
  others : after.erase name = before.erase name

/-- What is promised of asking for a variable to be set. A bad name is the first thing noticed. -/
structure Sets (name value : Bytes) (s : Session) (step : Step EnvError Unit) : Prop where
  taken : step.result = .ok () ↔ IsName name ∧ 0 ∉ value
  badName : step.result = .error (.badName (Utf8.lossy name)) ↔ ¬ IsName name
  badValue : step.result = .error (.badValue "contains a NUL byte") ↔ IsName name ∧ 0 ∈ value
  kept : step.result ≠ .ok () → step.session = s
  rebinds : step.result = .ok () → Rebinds name value s.world.vars step.session.world.vars
  found : s.world.vars.Sound → step.result = .ok () →
    step.session.world.vars.get? name = some value

/-- No path that the system reports after a move has a NUL byte in it. -/
def World.TellsPlainPaths (w : World) : Prop :=
  ∀ target w' path, w.moveTo target = .ok w' → w'.workingDirectory = .ok path → 0 ∉ path

def boundIn (events : List Event) : List Variable :=
  events.filterMap fun
    | .bound name value => some ⟨name, value⟩
    | _ => none

namespace Event

def IsBinding : Event → Prop
  | bound _ _ => True
  | _ => False

variable {e : Event}

theorem IsOffer.not_binding (h : IsOffer e) : ¬ IsBinding e := by
  cases e <;> simp_all [IsOffer, IsBinding]

theorem IsLife.not_binding (h : IsLife e) : ¬ IsBinding e := by
  cases e <;> simp_all [IsLife, IsBinding]

theorem IsReport.not_binding (h : IsReport e) : ¬ IsBinding e := by
  cases e <;> simp_all [IsReport, IsBinding]

end Event

open Event (IsBinding)

theorem isName_iff_validName {name : Bytes} : IsName name ↔ Variables.validName name = true := by
  rw [Variables.validName_iff, hasNul_eq_false_iff]
  constructor
  · rintro ⟨hne, hequals, hnul⟩
    exact ⟨hne, hequals, hnul⟩
  · rintro ⟨hne, hequals, hnul⟩
    exact ⟨hne, hequals, hnul⟩

instance (name : Bytes) : Decidable (IsName name) :=
  decidable_of_iff _ isName_iff_validName.symm

instance (v : Variable) : Decidable v.Storable :=
  decidable_of_iff (IsName v.name ∧ 0 ∉ v.value) ⟨fun h => ⟨h.1, h.2⟩, fun h => ⟨h.name, h.value⟩⟩

instance (vars : Variables) : Decidable vars.Sound :=
  decidable_of_iff (vars.names.Nodup ∧ ∀ v ∈ vars, v.Storable)
    ⟨fun h => ⟨h.1, h.2⟩, fun h => ⟨h.distinct, h.storable⟩⟩

theorem boundIn_append (before after : List Event) :
    boundIn (before ++ after) = boundIn before ++ boundIn after :=
  List.filterMap_append

theorem boundIn_eq_nil {events : List Event} (h : ∀ e ∈ events, ¬ IsBinding e) :
    boundIn events = [] := by
  rw [boundIn, List.filterMap_eq_nil_iff]
  intro e he
  cases e with
  | bound name value => exact absurd trivial (h _ he)
  | _ => rfl

namespace Variables

variable {vars : Variables} {v : Variable}

theorem mem_of_mem_set {u : Variable} {name value : Bytes} (h : u ∈ vars.set name value) :
    u ∈ vars ∨ u = ⟨name, value⟩ := by
  induction vars with
  | nil => exact .inr (List.mem_singleton.mp h)
  | cons v vars ih =>
    unfold set at h
    split at h
    · rcases List.mem_cons.mp h with rfl | h
      · exact .inr rfl
      · exact .inl (List.mem_cons_of_mem v h)
    · rcases List.mem_cons.mp h with rfl | h
      · exact .inl List.mem_cons_self
      · exact (ih h).imp_left (List.mem_cons_of_mem v)

theorem erase_set (vars : Variables) (name value : Bytes) :
    (vars.set name value).erase name = vars.erase name := by
  induction vars with
  | nil => simp [set, erase]
  | cons v vars ih =>
    by_cases hv : v.name = name
    · simp [set, erase, hv]
    · simpa [set, erase, hv] using ih

theorem rebinds_set (vars : Variables) (name value : Bytes) :
    Rebinds name value vars (vars.set name value) where
  bound := by rw [valueOf?_set, if_pos rfl]
  others := erase_set vars name value

theorem names_prefix_set (vars : Variables) (name value : Bytes) :
    vars.names <+: (vars.set name value).names := by
  rw [names_set]
  split
  · exact List.prefix_refl _
  · exact List.prefix_append _ _

theorem Named.wellNamed (h : vars.Named) : vars.WellNamed where
  distinct := h.distinct
  nonempty n hn := (h.isName n hn).nonempty
  plain n hn hequals := (h.isName n hn).noEquals (List.mem_of_mem_tail hequals)

theorem Named.set {name : Bytes} (h : vars.Named) (hname : IsName name) (value : Bytes) :
    (vars.set name value).Named where
  distinct := (h.wellNamed.set (isName_iff_validName.mp hname)).distinct
  isName := by
    intro n hn
    rcases mem_names_set.mp hn with hn | rfl
    · exact h.isName n hn
    · exact hname

theorem Sound.named (h : vars.Sound) : vars.Named where
  distinct := h.distinct
  isName := by
    intro n hn
    obtain ⟨v, hv, rfl⟩ := List.mem_map.mp hn
    exact (h.storable v hv).name

theorem Sound.wellNamed (h : vars.Sound) : vars.WellNamed := h.named.wellNamed

theorem Sound.set (h : vars.Sound) (hv : v.Storable) : (vars.set v.name v.value).Sound where
  distinct := (h.named.set hv.name v.value).distinct
  storable := by
    intro u hu
    rcases mem_of_mem_set hu with hu | rfl
    · exact h.storable u hu
    · exact hv

end Variables

theorem pwd_isName : IsName Environment.pwd := isName_iff_validName.mpr (by decide)

/-- All that anything does to the store: it is left alone, or given one variable that was looked at
first, or `PWD` with the path that was reported after a move. -/
inductive Stores {ε α : Type} (s : Session) (step : Step ε α) : Prop where
  | nothing (made : boundIn step.events = [])
      (vars : step.session.world.vars = s.world.vars)
  | checked (v : Variable) (storable : v.Storable) (made : boundIn step.events = [v])
      (vars : step.session.world.vars = s.world.vars.set v.name v.value)
  | told (target : Bytes) (w : World) (path : Bytes) (move : s.world.moveTo target = .ok w)
      (here : w.workingDirectory = .ok path)
      (made : boundIn step.events = [⟨Environment.pwd, path⟩])
      (vars : step.session.world.vars = s.world.vars.set Environment.pwd path)

def Act.StoresOnce {ε α : Type} (f : Act ε α) : Prop := ∀ s, Stores s (f s)

section
variable {ε δ α β : Type} {s : Session}

theorem Stores.congr {t : Session} {step : Step ε α} {step' : Step δ β} (h : Stores t step)
    (hworld : t.world = s.world) (hmade : boundIn step'.events = boundIn step.events)
    (hvars : step'.session.world.vars = step.session.world.vars) : Stores s step' := by
  cases h with
  | nothing made vars => exact .nothing (hmade.trans made) (hvars.trans (hworld ▸ vars))
  | checked v storable made vars =>
    exact .checked v storable (hmade.trans made) (hvars.trans (hworld ▸ vars))
  | told target w path move here made vars =>
    exact .told target w path (hworld ▸ move) here (hmade.trans made) (hvars.trans (hworld ▸ vars))

namespace Act.StoresOnce

theorem of_madeOf {f : Act ε α} (h : MadeOf (¬ IsBinding ·) False f) : StoresOnce f :=
  fun s => .nothing (boundIn_eq_nil (h.events s)) (congrArg World.vars (h.world_eq s))

theorem mapError {f : Act ε α} (h : StoresOnce f) (k : ε → δ) : StoresOnce (f.mapError k) :=
  fun s => (h s).congr rfl rfl rfl

theorem attempt {f : Act ε α} (h : StoresOnce f) :
    StoresOnce (f.attempt : Act δ (Except ε α)) :=
  fun s => (h s).congr rfl rfl rfl

theorem after {f : Act ε α} {g : α → Act ε β} (hf : MadeOf (¬ IsBinding ·) False f)
    (hg : ∀ a, StoresOnce (g a)) : StoresOnce (f >>= g) := by
  intro s
  have hworld := hf.world_eq s
  have hmade := boundIn_eq_nil (hf.events s)
  cases hr : (f s).result with
  | error error =>
    rw [Act.bind_error hr]
    exact .nothing hmade (congrArg World.vars hworld)
  | ok a =>
    rw [Act.bind_ok hr]
    refine (hg a (f s).session).congr hworld ?_ rfl
    rw [boundIn_append, hmade, List.nil_append]

theorem before {f : Act ε α} {g : α → Act ε β} (hf : StoresOnce f)
    (hg : ∀ a, MadeOf (¬ IsBinding ·) False (g a)) : StoresOnce (f >>= g) := by
  intro s
  cases hr : (f s).result with
  | error error =>
    rw [Act.bind_error hr]
    exact (hf s).congr rfl rfl rfl
  | ok a =>
    rw [Act.bind_ok hr]
    refine (hf s).congr rfl ?_ (congrArg World.vars ((hg a).world_eq _))
    rw [boundIn_append, boundIn_eq_nil ((hg a).events _), List.append_nil]

end Act.StoresOnce

end

open Act (StoresOnce)

theorem setVar_stores (name value : Bytes) : StoresOnce (Environment.setVar name value) := by
  intro s
  rcases setVar_step name value s with ⟨error, hset⟩ | ⟨hname, hvalue, hset⟩
  · rw [hset]
    exact .nothing rfl rfl
  · rw [hset]
    exact .checked ⟨name, value⟩ ⟨isName_iff_validName.mpr hname, hasNul_eq_false_iff.mp hvalue⟩
      rfl rfl

theorem setVar_sets (name value : Bytes) (s : Session) :
    Sets name value s (Environment.setVar name value s) := by
  by_cases hname : IsName name
  · have hvalid := isName_iff_validName.mp hname
    by_cases hvalue : 0 ∈ value
    · rw [setVar_of_badValue hvalid (hasNul_iff.mpr hvalue)]
      constructor <;> simp [hname, hvalue]
    · rw [setVar_of_good hvalid (hasNul_eq_false_iff.mpr hvalue)]
      constructor
      · simp [hname, hvalue]
      · simp [hname]
      · simp [hvalue]
      · simp
      · exact fun _ => Variables.rebinds_set _ _ _
      · intro hs _
        have hv : (⟨name, value⟩ : Variable).Storable := ⟨hname, hvalue⟩
        rw [Variables.get?_eq_valueOf? (hs.set hv).wellNamed.plain hvalid]
        exact (Variables.rebinds_set _ _ _).bound
  · have hinvalid : Variables.validName name = false := by
      rw [isName_iff_validName] at hname
      simpa using hname
    rw [setVar_of_badName hinvalid]
    constructor <;> simp [hname]

theorem changeDir_stores (path : Bytes) : StoresOnce (Environment.changeDir path) := by
  intro s
  cases hmove : s.world.moveTo path with
  | error fault =>
    rw [changeDir_of_refused hmove]
    exact .nothing rfl rfl
  | ok w =>
    have hvars := World.moveTo_vars hmove
    cases hhere : w.workingDirectory with
    | error fault =>
      rw [changeDir_of_lost hmove hhere]
      exact .nothing rfl hvars
    | ok current =>
      rw [changeDir_of_moved hmove hhere]
      exact .told path w current hmove hhere rfl (by rw [← hvars])

theorem log_binds_nothing {ε : Type} (record : Record) :
    MadeOf (¬ IsBinding ·) False (Act.log record : Act ε Unit) :=
  .happen id id

theorem runCd_stores (list : TokenList) : StoresOnce (Builtin.runCd list) := by
  have hgo (path : Bytes) : StoresOnce (goTo path) :=
    (changeDir_stores path).before fun _ => .bind (log_binds_nothing _) fun _ => .pure _
  refine .mapError ?_ _
  split
  · exact .after (.pure _) hgo
  · exact .after homeDir_madeOf hgo

theorem askForVariable_offers : MadeOf IsOffer False Builtin.askForVariable :=
  .bind (writeEach_offers _) fun _ => .pure _

theorem runSet_stores (list : TokenList) : StoresOnce (Builtin.runSet list) := by
  unfold Builtin.runSet
  split
  · exact .of_madeOf (askForVariable_offers.mono (fun _ => Event.IsOffer.not_binding) id)
  · exact ((setVar_stores _ _).mapError _).before fun _ => .pure _

theorem builtin_stores (builtin : Builtin) (list : TokenList) :
    StoresOnce (builtin.run list) := by
  by_cases hcd : builtin = .cd
  · subst hcd
    exact runCd_stores list
  · by_cases hset : builtin = .set
    · subst hset
      exact runSet_stores list
    · have hoffers := builtin_offers hcd hset list
      exact .of_madeOf (hoffers.mono (fun _ => Event.IsOffer.not_binding) id)

theorem launch_stores (list : TokenList) : StoresOnce (launch list) := by
  intro s
  cases htokens : list.tokens with
  | nil =>
    unfold launch
    rw [htokens]
    exact .nothing rfl rfl
  | cons name arguments =>
    cases hexec : s.world.exec name arguments with
    | error fault =>
      rw [launch_of_refused htokens hexec]
      exact .nothing rfl rfl
    | ok script =>
      rw [launch_of_started htokens hexec]
      let lived := World.live script { s.world with nextPid := s.world.nextPid + 1 }
      have hlife := (awaitEnd_madeOf s.world.nextPid lived.1).events { s with world := lived.2 }
      have hmade := boundIn_eq_nil fun e he => (hlife e he).isLife.not_binding
      exact .nothing hmade (World.live_vars script _)

theorem execute_stores (list : TokenList) : StoresOnce (execute list) := by
  unfold execute
  split
  · exact .of_madeOf (.pure _)
  · split
    · exact .after (log_binds_nothing _) fun _ => builtin_stores _ list
    · have hflush : MadeOf (¬ IsBinding ·) False Act.flush := .flush fun _ => id
      refine .after (.mapError _ hflush) fun _ => .after (log_binds_nothing _) fun _ => ?_
      refine ((launch_stores list).mapError _).before fun outcome => ?_
      split
      · exact .bind (log_binds_nothing _) fun _ => .pure _
      · exact .pure _

theorem executeLine_stores {ε : Type} (shell : Shell) (line : Bytes) :
    StoresOnce (shell.executeLine line : Act ε Status) := by
  refine (execute_stores _).attempt.before fun outcome => ?_
  cases outcome with
  | ok status => exact .pure _
  | error error =>
    have hreport := report_madeOf (ε := ε) shell (Utf8.lossy ((tokenize line).command?.getD []))
      error
    exact .bind (hreport.mono (fun _ => Event.IsReport.not_binding) id) fun _ => .pure _

/-- What can be asked of the shell and its parts, with any bytes for arguments. -/
inductive Operation where
  | line (line : Bytes)
  | command (list : TokenList)
  /-- The built-in by itself, whatever the first token is. -/
  | builtin (builtin : Builtin) (list : TokenList)
  | var (name : Bytes)
  | setVar (name value : Bytes)
  | homeDir
  | currentDir
  | changeDir (path : Bytes)

namespace Operation

def settled {ε α : Type} (act : Act ε α) : Act ShellError Unit := do
  let _ ← act.attempt
  pure ()

def perform (shell : Shell) : Operation → Act ShellError Unit
  | .line bytes => settled (shell.executeLine bytes : Act ShellError Status)
  | .command list => settled (execute list)
  | .builtin which list => settled (which.run list)
  | .var name => settled (Environment.var name)
  | .setVar name value => settled (Environment.setVar name value)
  | .homeDir => settled Environment.homeDir
  | .currentDir => settled Environment.currentDir
  | .changeDir path => settled (Environment.changeDir path)

theorem perform_stores (shell : Shell) (operation : Operation) :
    StoresOnce (operation.perform shell) := by
  have hsettled {ε α : Type} {act : Act ε α} (h : StoresOnce act) : StoresOnce (settled act) :=
    h.attempt.before fun _ => .pure _
  cases operation with
  | line bytes => exact hsettled (executeLine_stores shell bytes)
  | command list => exact hsettled (execute_stores list)
  | builtin which list => exact hsettled (builtin_stores which list)
  | var name => exact hsettled (.of_madeOf (var_madeOf name))
  | setVar name value => exact hsettled (setVar_stores name value)
  | homeDir => exact hsettled (.of_madeOf homeDir_madeOf)
  | currentDir =>
    have hmade : MadeOf (¬ IsBinding ·) False Environment.currentDir :=
      .bind .world fun _ => .ofExcept _
    exact hsettled (.of_madeOf hmade)
  | changeDir path => exact hsettled (changeDir_stores path)

end Operation

section
variable {ε α : Type} {s : Session} {step : Step ε α}

theorem pwd_storable {path : Bytes} (h : 0 ∉ path) :
    (⟨Environment.pwd, path⟩ : Variable).Storable :=
  ⟨pwd_isName, h⟩

theorem Stores.storable (h : Stores s step) (hpaths : s.world.TellsPlainPaths) :
    ∀ v ∈ boundIn step.events, v.Storable := by
  intro v hv
  cases h with
  | nothing made vars =>
    rw [made] at hv
    cases hv
  | checked u storable made vars =>
    rw [made] at hv
    rwa [List.mem_singleton.mp hv]
  | told target w path move here made vars =>
    rw [made] at hv
    rw [List.mem_singleton.mp hv]
    exact pwd_storable (hpaths target w path move here)

theorem Stores.sound (h : Stores s step) (hpaths : s.world.TellsPlainPaths)
    (hs : s.world.vars.Sound) : step.session.world.vars.Sound := by
  cases h with
  | nothing made vars => exact vars ▸ hs
  | checked v storable made vars =>
    rw [vars]
    exact hs.set storable
  | told target w path move here made vars =>
    rw [vars]
    exact hs.set (pwd_storable (hpaths target w path move here))

theorem Stores.names (h : Stores s step) :
    s.world.vars.names <+: step.session.world.vars.names := by
  cases h with
  | nothing made vars => exact vars ▸ List.prefix_refl _
  | checked v storable made vars =>
    rw [vars]
    exact Variables.names_prefix_set _ _ _
  | told target w path move here made vars =>
    rw [vars]
    exact Variables.names_prefix_set _ _ _

end

namespace Shell

variable (shell : Shell)

/-- The sessions passed through, from the first to the last. -/
def passed : List Operation → Session → List Session
  | [], s => [s]
  | operation :: later, s => s :: passed later (operation.perform shell s).session

variable {shell} {operations : List Operation} {s : Session}

theorem mem_passed_self : s ∈ shell.passed operations s := by
  cases operations with
  | nil => exact List.mem_singleton_self s
  | cons => exact List.mem_cons_self

theorem passed_sound (hs : s.world.vars.Sound)
    (hpaths : ∀ t ∈ shell.passed operations s, t.world.TellsPlainPaths) :
    ∀ t ∈ shell.passed operations s, t.world.vars.Sound := by
  induction operations generalizing s with
  | nil =>
    intro t ht
    rwa [List.mem_singleton.mp ht]
  | cons operation later ih =>
    have hnext := (operation.perform_stores shell s).sound (hpaths s mem_passed_self) hs
    intro t ht
    rcases List.mem_cons.mp ht with rfl | ht
    · exact hs
    · exact ih hnext (fun u hu => hpaths u (List.mem_cons_of_mem s hu)) t ht

theorem passed_names (operations : List Operation) (s : Session) :
    ∀ t ∈ shell.passed operations s, s.world.vars.names <+: t.world.vars.names := by
  induction operations generalizing s with
  | nil =>
    intro t ht
    exact List.mem_singleton.mp ht ▸ List.prefix_refl _
  | cons operation later ih =>
    intro t ht
    rcases List.mem_cons.mp ht with rfl | ht
    · exact List.prefix_refl _
    · exact (operation.perform_stores shell s).names.trans (ih _ t ht)

theorem passed_pairwise_names (operations : List Operation) (s : Session) :
    (shell.passed operations s).Pairwise fun t u => t.world.vars.names <+: u.world.vars.names := by
  induction operations generalizing s with
  | nil => exact List.pairwise_singleton _ _
  | cons operation later ih =>
    refine List.pairwise_cons.mpr ⟨?_, ih _⟩
    intro t ht
    exact passed_names (operation :: later) s t (List.mem_cons_of_mem s ht)

end Shell

def Place.Plain : Place → Prop
  | .live path => ∀ name ∈ path, 0 ∉ name
  | .removed above => above.Plain

instance Place.decidablePlain : (place : Place) → Decidable place.Plain
  | .live path => inferInstanceAs (Decidable (∀ name ∈ path, 0 ∉ name))
  | .removed above => decidablePlain above

theorem Tree.carries_plain {tree : Tree} (h : ∀ e ∈ tree, ∀ name ∈ e.1, 0 ∉ name) :
    tree.Carries Place.Plain where
  root := List.forall_mem_nil _
  up place hplace := by
    cases place with
    | live path => exact fun name hname => hplace name (List.dropLast_subset path hname)
    | removed above => exact hplace
  down path name _ hfind := by
    have hlookup : tree.lookup (path ++ [name]) = some .directory := by
      simpa [Tree.find?] using hfind
    obtain ⟨before, later, rfl, _⟩ := List.lookup_eq_some_iff.mp hlookup
    exact h (path ++ [name], .directory) (by simp)

theorem nul_notMem_render {path : Path} (h : ∀ name ∈ path, 0 ∉ name) : 0 ∉ path.render := by
  have hslash : (0 : UInt8) ≠ Bytes.slash := by decide
  cases path with
  | nil => simpa [Path.render] using hslash
  | cons first rest =>
    intro hmem
    obtain ⟨name, hname, hin⟩ := List.mem_flatMap.mp hmem
    rcases List.mem_cons.mp hin with hzero | hin
    · exact hslash hzero
    · exact h name hname hin

theorem World.tellsPlainPaths {w : World} (htree : ∀ e ∈ w.tree, ∀ name ∈ e.1, 0 ∉ name)
    (hcwd : w.cwd.Plain) : w.TellsPlainPaths := by
  intro target w' path hmove hhere
  have hplain := World.moveTo_keeps (Tree.carries_plain htree) hcwd hmove
  unfold World.workingDirectory at hhere
  cases hplace : w'.cwd with
  | removed above =>
    rw [hplace] at hhere
    cases hhere
  | live names =>
    rw [hplace] at hhere hplain
    cases hhere
    exact nul_notMem_render hplain

/-- From a sound store on, the store stays sound and loses no name, whatever is asked for and in
whatever order. Nothing that could be asked for next would give it what it cannot hold; and setting
a variable is refused exactly when it would. -/
theorem store_stays_sound (shell : Shell) (operations : List Operation) (s : Session)
    (hs : s.world.vars.Sound)
    (hpaths : ∀ t ∈ shell.passed operations s, t.world.TellsPlainPaths) :
    (∀ t ∈ shell.passed operations s, t.world.vars.Sound ∧
      ∀ operation : Operation, ∀ v ∈ boundIn (operation.perform shell t).events, v.Storable) ∧
    (shell.passed operations s).Pairwise (fun t u => t.world.vars.names <+: u.world.vars.names) ∧
    ∀ t name value, Sets name value t (Environment.setVar name value t) := by
  refine ⟨?_, Shell.passed_pairwise_names operations s, ?_⟩
  · intro t ht
    refine ⟨Shell.passed_sound hs hpaths t ht, ?_⟩
    intro operation
    exact (operation.perform_stores shell t).storable (hpaths t ht)
  · intro t name value
    exact setVar_sets name value t

/-- A name is bound to itself, one with an equals sign and a value with a NUL byte are refused, and
`PWD` is bound by hand, by a move and by a built-in that is called under another name. -/
theorem store_stays_sound_among_refusals :
    let s : Session := ⟨Machine.world [("A", "1")], .accepting, .accepting⟩
    let shell := Shell.mk "$ " .plain
    let operations : List Operation :=
      [.line (Bytes.ofString "set B\n"), .line (Bytes.ofString "set A=B C\n"),
        .setVar (Bytes.ofString "A") [1, 0, 2], .setVar Environment.pwd (Bytes.ofString "nowhere"),
        .line (Bytes.ofString "mkdir /tmp/d\n"), .changeDir (Bytes.ofString "/tmp/d"),
        .builtin .cd (.ofList [Bytes.ofString "get", Bytes.ofString ".."]), .homeDir]
    let last := shell.passed operations s |>.getLast?
    s.world.vars.Sound ∧ (∀ t ∈ shell.passed operations s, t.world.TellsPlainPaths) ∧
    (∀ t ∈ shell.passed operations s, t.world.vars.Sound) ∧
    last.map (·.world.vars.get? Environment.pwd) = some (some (Bytes.ofString "/tmp")) := by
  intro s shell operations last
  have hs : s.world.vars.Sound := by decide +kernel
  have hplain : ∀ t ∈ shell.passed operations s,
      (∀ e ∈ t.world.tree, ∀ name ∈ e.1, 0 ∉ name) ∧ t.world.cwd.Plain := by decide +kernel
  have hpaths : ∀ t ∈ shell.passed operations s, t.world.TellsPlainPaths :=
    fun t ht => World.tellsPlainPaths (hplain t ht).1 (hplain t ht).2
  refine ⟨hs, hpaths, ?_, by decide +kernel⟩
  intro t ht
  exact ((store_stays_sound shell operations s hs hpaths).1 t ht).1

end LineShell
