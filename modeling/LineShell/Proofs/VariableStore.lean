import LineShell.Variables
import Mathlib.Data.List.Basic
import Mathlib.Data.List.Nodup

/-!
# The variable store

A name is looked up by the text of the entries. Where all names are such as entries can have, that
finds what the name itself is bound to, and binding a name changes what this one name is bound to
and nothing else.
-/
namespace LineShell

theorem hasNul_iff {bytes : Bytes} : bytes.hasNul = true ↔ 0 ∈ bytes := by
  simp [Bytes.hasNul]

theorem hasNul_eq_false_iff {bytes : Bytes} : bytes.hasNul = false ↔ 0 ∉ bytes := by
  simp [Bytes.hasNul]

namespace Variables

variable {vars : Variables} {name value : Bytes}

/-- What a name is bound to, by the names themselves. -/
def valueOf? (vars : Variables) (name : Bytes) : Option Bytes :=
  (vars.find? (·.name = name)).map Variable.value

/-- No name has an equals sign behind its first byte, where it would end the name of the entry. -/
def Plain (vars : Variables) : Prop := ∀ n ∈ vars.names, Bytes.equals ∉ n.tail

instance (vars : Variables) : Decidable vars.Plain :=
  inferInstanceAs (Decidable (∀ n ∈ vars.names, Bytes.equals ∉ n.tail))

structure WellNamed (vars : Variables) : Prop where
  distinct : vars.names.Nodup
  nonempty : ∀ n ∈ vars.names, n ≠ []
  plain : vars.Plain

theorem validName_iff :
    validName name = true ↔ name ≠ [] ∧ Bytes.equals ∉ name ∧ name.hasNul = false := by
  simp [validName, and_assoc]

theorem append_equals_inj {a b c d : Bytes} (ha : Bytes.equals ∉ a) (hb : Bytes.equals ∉ b) :
    a ++ Bytes.equals :: c = b ++ Bytes.equals :: d ↔ a = b ∧ c = d := by
  induction a generalizing b with
  | nil =>
    cases b with
    | nil => simp
    | cons y b =>
      have hy : Bytes.equals ≠ y := fun h => hb (h ▸ List.mem_cons_self)
      simp [hy]
  | cons x a ih =>
    have hx : x ≠ Bytes.equals := fun h => ha (h ▸ List.mem_cons_self)
    cases b with
    | nil => simp [hx]
    | cons y b =>
      have hrest := ih (fun h => ha (List.mem_cons_of_mem x h))
        (fun h => hb (List.mem_cons_of_mem y h))
      simp [hrest, and_assoc]

theorem after?_entry (v : Variable) (hv : Bytes.equals ∉ v.name.tail)
    (hname : validName name = true) :
    Bytes.after? (name ++ [Bytes.equals]) v.entry =
      if v.name = name then some v.value else none := by
  obtain ⟨hne, hequals, _⟩ := validName_iff.mp hname
  have hsplit (rest : Bytes) :
      v.entry = name ++ [Bytes.equals] ++ rest ↔ v.name = name ∧ v.value = rest := by
    rw [Variable.entry, List.append_assoc, List.singleton_append]
    obtain ⟨y, name, rfl⟩ := List.exists_cons_of_ne_nil hne
    have hy : Bytes.equals ≠ y := fun h => hequals (h ▸ List.mem_cons_self)
    cases hn : v.name with
    | nil => simp [hy]
    | cons x n =>
      rw [hn] at hv
      have hrest : n ++ Bytes.equals :: v.value = name ++ Bytes.equals :: rest ↔ _ :=
        append_equals_inj hv fun h => hequals (List.mem_cons_of_mem y h)
      simp [hrest, and_assoc]
  by_cases h : v.name = name
  · rw [if_pos h, Bytes.after?_eq_some_iff, hsplit]
    exact ⟨h, rfl⟩
  · rw [if_neg h, Option.eq_none_iff_forall_ne_some]
    intro rest hrest
    exact h ((hsplit rest).mp (Bytes.after?_eq_some_iff.mp hrest)).1

theorem get?_eq_findSome? (hne : name ≠ []) (hnul : name.hasNul = false) :
    vars.get? name = vars.findSome? fun v => Bytes.after? (name ++ [Bytes.equals]) v.entry := by
  simp [get?, hne, hnul]

/-- Looking up by the text of the entries finds what is bound to the name. -/
theorem get?_eq_valueOf? (h : vars.Plain) (hname : validName name = true) :
    vars.get? name = vars.valueOf? name := by
  obtain ⟨hne, _, hnul⟩ := validName_iff.mp hname
  rw [get?_eq_findSome? hne hnul]
  induction vars with
  | nil => rfl
  | cons v vars ih =>
    have hv := h v.name (by simp [names])
    have hrest := ih fun n hn => h n (by simp [names] at hn ⊢; exact .inr hn)
    rw [List.findSome?_cons, after?_entry v hv hname, hrest]
    by_cases heq : v.name = name <;> simp [valueOf?, heq]

theorem valueOf?_set (vars : Variables) (bound value name : Bytes) :
    (vars.set bound value).valueOf? name =
      if bound = name then some value else vars.valueOf? name := by
  induction vars with
  | nil => by_cases h : bound = name <;> simp [set, valueOf?, h]
  | cons v vars ih =>
    unfold valueOf? at ih ⊢
    by_cases hv : v.name = bound
    · by_cases h : bound = name
      · simp [set, hv, h]
      · simp [set, hv, h]
    · by_cases h : bound = name
      · have hv' : v.name ≠ name := h ▸ hv
        simpa [set, hv, hv', h] using ih
      · by_cases hv' : v.name = name
        · simp [set, hv', h, Ne.symm h]
        · simpa [set, hv, hv', h] using ih

theorem names_set (vars : Variables) (name value : Bytes) :
    (vars.set name value).names =
      if name ∈ vars.names then vars.names else vars.names ++ [name] := by
  induction vars with
  | nil => rfl
  | cons v vars ih =>
    by_cases hv : v.name = name
    · simp [set, names, hv]
    · unfold names at ih
      simp only [set, hv, if_false, names, List.map_cons, ih, List.mem_cons, Ne.symm hv, false_or]
      split <;> rfl

theorem mem_names_set {n : Bytes} :
    n ∈ (vars.set name value).names ↔ n ∈ vars.names ∨ n = name := by
  rw [names_set]
  split
  · next h => exact ⟨.inl, fun hn => hn.elim id (· ▸ h)⟩
  · simp

theorem Plain.set (h : vars.Plain) (hname : validName name = true) :
    (vars.set name value).Plain := by
  intro n hn
  rcases mem_names_set.mp hn with hn | rfl
  · exact h n hn
  · exact fun h => (validName_iff.mp hname).2.1 (List.mem_of_mem_tail h)

/-- The entries that a process is started with make no other names. -/
theorem plain_of_entries (entries : List Bytes) : Plain (entries.filterMap Variable.ofEntry?) := by
  intro n hn
  obtain ⟨v, hv, rfl⟩ := List.mem_map.mp hn
  obtain ⟨entry, _, hentry⟩ := List.mem_filterMap.mp hv
  unfold Variable.ofEntry? at hentry
  split at hentry
  · cases hentry
  · dsimp only at hentry
    split at hentry
    · cases hentry
    · cases hentry
      intro h
      simpa using List.all_eq_true.mp List.all_takeWhile _ h

theorem WellNamed.set (h : vars.WellNamed) (hname : validName name = true) :
    (vars.set name value).WellNamed where
  distinct := by
    rw [names_set]
    split
    · exact h.distinct
    · next hnew =>
      rw [List.nodup_append]
      refine ⟨h.distinct, List.nodup_singleton name, ?_⟩
      intro a ha b hb
      rw [List.mem_singleton.mp hb]
      exact fun hab => hnew (hab ▸ ha)
  nonempty := by
    intro n hn
    rcases mem_names_set.mp hn with hn | rfl
    · exact h.nonempty n hn
    · exact (validName_iff.mp hname).1
  plain := h.plain.set hname

theorem values_eq_toList (h : vars.names.Nodup) (name : Bytes) :
    (vars.filter (·.name = name)).map Variable.value = (vars.valueOf? name).toList := by
  induction vars with
  | nil => rfl
  | cons v vars ih =>
    obtain ⟨hnew, hrest⟩ := List.nodup_cons.mp h
    by_cases hv : v.name = name
    · have hnone : vars.filter (·.name = name) = [] := by
        rw [List.filter_eq_nil_iff]
        intro u hu huname
        have hmem : u.name ∈ names vars := List.mem_map_of_mem hu
        exact hnew (show v.name ∈ names vars by rw [hv, ← of_decide_eq_true huname]; exact hmem)
      simp [valueOf?, hv, hnone]
    · simpa [valueOf?, hv] using ih hrest

end Variables
end LineShell
