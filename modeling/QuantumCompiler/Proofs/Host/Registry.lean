import QuantumCompiler.Host.Plugin
import QuantumCompiler.Proofs.Table

/-!
# What the changes to a registry do

A registry is known by what it binds each name to and by its default. Every change
comes down to `registerAs`, `remove` and `setDefault`; the laws here give both views
after each of them, and after lists of registrations and withdrawals.

`Sound` holds of every registry made by these changes: its table is sorted and its
default is a registered name.

* `Registrations.lookup_foldl_of_mem`, `Registrations.lookup_foldl_of_notMem` — the last
  registration of a name counts, wherever registrations are entered;
* `get?_withdraw_eq_some_iff` — a binding survives a withdrawal if its handle was not
  recorded under its name;
* `Sound.defaultName_withdraw_eq_some_iff` — the default survives with its name.
-/

namespace QuantumCompiler

/-- The names of registrations. -/
def Registrations.names (rs : Registrations) : List String :=
  rs.map (·.1)

theorem Registrations.mem_names {rs : Registrations} {name : String} :
    name ∈ rs.names ↔ ∃ handle, (name, handle) ∈ rs := by
  simp [Registrations.names]

section Updates

variable {σ β : Type} (lookup : σ → String → Option β) (value : Handle → β)
  {update : σ → String × Handle → σ}
  (hupdate : ∀ s name handle n, lookup (update s (name, handle)) n =
    if n = name then some (value handle) else lookup s n)

include hupdate

/-- Registrations that are entered one after the other leave other names alone. -/
theorem Registrations.lookup_foldl_of_notMem {rs : Registrations} {n : String}
    (h : n ∉ rs.names) (s : σ) : lookup (rs.foldl update s) n = lookup s n := by
  induction rs generalizing s with
  | nil => rfl
  | cons entry rs ih =>
    obtain ⟨hne, hrest⟩ := not_or.mp (mt List.mem_cons.mpr h)
    rw [List.foldl_cons, ih hrest, hupdate, if_neg hne]

/-- Of the registrations under a name the last one counts. -/
theorem Registrations.lookup_foldl_of_mem {rs : Registrations} {n : String}
    (h : n ∈ rs.names) (s : σ) :
    ∃ handle, (n, handle) ∈ rs ∧ lookup (rs.foldl update s) n = some (value handle) := by
  induction rs generalizing s with
  | nil => cases h
  | cons entry rs ih =>
    rw [List.foldl_cons]
    by_cases hrest : n ∈ Registrations.names rs
    · obtain ⟨last, hmem, hlast⟩ := ih hrest (update s entry)
      exact ⟨last, List.mem_cons_of_mem _ hmem, hlast⟩
    · -- the name is not registered again, so the first registration is the last
      obtain rfl : n = entry.1 := (List.mem_cons.mp h).resolve_right hrest
      refine ⟨entry.2, List.mem_cons_self, ?_⟩
      rw [lookup_foldl_of_notMem lookup value hupdate hrest, hupdate, if_pos rfl]

end Updates

namespace CompilerRegistry

-- ---------------------------------------------------------------------------
-- Single changes
-- ---------------------------------------------------------------------------

theorem get?_registerAs (r : CompilerRegistry) (name : String) (handle : Handle) (n : String) :
    (r.registerAs name handle).compilers.get? n =
      if n = name then some handle else r.compilers.get? n :=
  Table.get?_insert r.compilers name handle n

theorem get?_remove (r : CompilerRegistry) (name n : String) :
    (r.remove name).compilers.get? n = if n = name then none else r.compilers.get? n :=
  Table.get?_erase r.compilers name n

/-- Unregistering an instance removes the name or does nothing. -/
theorem unregisterInstance_cases (r : CompilerRegistry) (name : String) (handle : Handle) :
    (∃ current, r.compilers.get? name = some current ∧ current.id = handle.id ∧
        r.unregisterInstance name handle = (r.remove name, true)) ∨
      ((∀ current, r.compilers.get? name = some current → current.id ≠ handle.id) ∧
        r.unregisterInstance name handle = (r, false)) := by
  unfold unregisterInstance
  cases hget : r.compilers.get? name with
  | none => exact Or.inr ⟨fun current h => (by cases h), rfl⟩
  | some current =>
    by_cases hid : current.id = handle.id
    · exact Or.inl ⟨current, rfl, hid, if_pos hid⟩
    · refine Or.inr ⟨?_, if_neg hid⟩
      intro current' hcurrent
      rw [← Option.some.inj hcurrent]
      exact hid

theorem unregister_cases (r : CompilerRegistry) (name : String) :
    (r.unregister name).1 = r.remove name ∨ (r.unregister name).1 = r := by
  unfold unregister
  cases r.compilers.get? name with
  | none => exact Or.inr rfl
  | some handle => exact Or.inl rfl

-- ---------------------------------------------------------------------------
-- Lists of registrations
-- ---------------------------------------------------------------------------

theorem registerAll_cons (r : CompilerRegistry) (name : String) (handle : Handle)
    (rs : Registrations) :
    r.registerAll ((name, handle) :: rs) = (r.registerAs name handle).registerAll rs := rfl

theorem withdraw_cons (r : CompilerRegistry) (name : String) (handle : Handle)
    (rs : Registrations) :
    r.withdraw ((name, handle) :: rs) = (r.unregisterInstance name handle).1.withdraw rs := rfl

theorem get?_registerAll_of_notMem (r : CompilerRegistry) {rs : Registrations} {n : String}
    (h : n ∉ rs.names) : (r.registerAll rs).compilers.get? n = r.compilers.get? n :=
  Registrations.lookup_foldl_of_notMem (fun r => r.compilers.get?) id get?_registerAs h r

theorem get?_registerAll_of_mem (r : CompilerRegistry) {rs : Registrations} {n : String}
    (h : n ∈ rs.names) :
    ∃ handle, (n, handle) ∈ rs ∧ (r.registerAll rs).compilers.get? n = some handle :=
  Registrations.lookup_foldl_of_mem (fun r => r.compilers.get?) id get?_registerAs h r

/-- The first of the registrations becomes the default if there was none. -/
theorem defaultName_registerAll (r : CompilerRegistry) (rs : Registrations) :
    (r.registerAll rs).defaultName = (r.defaultName <|> rs.names.head?) := by
  induction rs generalizing r with
  | nil => cases hdefault : r.defaultName <;> simp [registerAll, Registrations.names, hdefault]
  | cons entry rs ih =>
    obtain ⟨name, handle⟩ := entry
    rw [registerAll_cons, ih]
    cases hdefault : r.defaultName <;> simp [registerAs, Registrations.names, hdefault]

/-- A binding survives if its handle was not recorded under its name. -/
theorem get?_withdraw_eq_some_iff (r : CompilerRegistry) (rs : Registrations) (n : String)
    (current : Handle) :
    (r.withdraw rs).compilers.get? n = some current ↔
      r.compilers.get? n = some current ∧ ∀ handle, (n, handle) ∈ rs → current.id ≠ handle.id := by
  induction rs generalizing r with
  | nil => simp [withdraw]
  | cons entry rs ih =>
    obtain ⟨name, handle⟩ := entry
    rw [withdraw_cons, ih]
    rcases r.unregisterInstance_cases name handle with ⟨bound, hbound, hid, hstep⟩ | ⟨hkept, hstep⟩
    · -- the name is removed, which the handle recorded for it accounts for
      rw [hstep, get?_remove]
      by_cases hn : n = name
      · subst hn
        rw [if_pos rfl, hbound]
        constructor
        · rintro ⟨h, -⟩
          cases h
        · rintro ⟨h, hrecorded⟩
          cases h
          exact absurd hid (hrecorded handle List.mem_cons_self)
      · rw [if_neg hn]
        apply and_congr_right
        intro _
        simp [hn]
    · rw [hstep]
      apply and_congr_right
      intro hcurrent
      constructor
      · intro hrecorded handle' hmem
        rcases List.mem_cons.mp hmem with heq | hmem
        · obtain ⟨rfl, rfl⟩ := Prod.mk.inj heq
          exact hkept current hcurrent
        · exact hrecorded handle' hmem
      · intro hrecorded handle' hmem
        exact hrecorded handle' (List.mem_cons_of_mem _ hmem)

-- ---------------------------------------------------------------------------
-- Soundness
-- ---------------------------------------------------------------------------

/-- The table is sorted and the default is a registered name. -/
structure Sound (r : CompilerRegistry) : Prop where
  sorted : r.compilers.Sorted
  bound : ∀ name, r.defaultName = some name → r.contains name = true

namespace Sound

variable {r : CompilerRegistry}

theorem empty : CompilerRegistry.empty.Sound :=
  ⟨Table.sorted_empty, fun _ h => by cases h⟩

theorem registerAs (h : r.Sound) (name : String) (handle : Handle) :
    (r.registerAs name handle).Sound := by
  refine ⟨h.sorted.insert name handle, ?_⟩
  intro d hd
  rw [contains, Table.contains_iff, get?_registerAs]
  by_cases hname : d = name
  · exact ⟨handle, if_pos hname⟩
  · rw [if_neg hname, ← Table.contains_iff]
    apply h.bound
    cases hdefault : r.defaultName with
    | some d' => simpa [CompilerRegistry.registerAs, hdefault] using hd
    | none =>
      simp only [CompilerRegistry.registerAs, hdefault] at hd
      exact absurd (Option.some.inj hd).symm hname

theorem remove (h : r.Sound) (name : String) : (r.remove name).Sound := by
  refine ⟨h.sorted.erase name, ?_⟩
  intro d hd
  simp only [CompilerRegistry.remove] at hd
  split at hd
  · cases hd
  · rename_i hne
    have hname : d ≠ name := by
      rintro rfl
      exact hne hd
    rw [contains, Table.contains_iff, get?_remove, if_neg hname, ← Table.contains_iff]
    exact h.bound d hd

theorem setDefault (h : r.Sound) {name : String} {r' : CompilerRegistry}
    (hset : r.setDefault name = .ok r') : r'.Sound := by
  unfold CompilerRegistry.setDefault at hset
  split at hset
  · rename_i hname
    cases hset
    refine ⟨h.sorted, ?_⟩
    intro d hd
    rw [← Option.some.inj hd]
    exact hname
  · cases hset

theorem unregister (h : r.Sound) (name : String) : (r.unregister name).1.Sound := by
  rcases r.unregister_cases name with hstep | hstep
  · rw [hstep]
    exact h.remove name
  · rw [hstep]
    exact h

theorem unregisterInstance (h : r.Sound) (name : String) (handle : Handle) :
    (r.unregisterInstance name handle).1.Sound := by
  rcases r.unregisterInstance_cases name handle with ⟨_, _, _, hstep⟩ | ⟨_, hstep⟩
  · rw [hstep]
    exact h.remove name
  · rw [hstep]
    exact h

theorem registerAll (h : r.Sound) (rs : Registrations) : (r.registerAll rs).Sound := by
  induction rs generalizing r with
  | nil => exact h
  | cons entry rs ih => exact ih (h.registerAs entry.1 entry.2)

theorem withdraw (h : r.Sound) (rs : Registrations) : (r.withdraw rs).Sound := by
  induction rs generalizing r with
  | nil => exact h
  | cons entry rs ih => exact ih (h.unregisterInstance entry.1 entry.2)

/-- The default survives withdrawals exactly if its name does. -/
theorem defaultName_withdraw_eq_some_iff (h : r.Sound) (rs : Registrations) (d : String) :
    (r.withdraw rs).defaultName = some d ↔
      r.defaultName = some d ∧ (r.withdraw rs).contains d = true := by
  induction rs generalizing r with
  | nil => exact ⟨fun hd => ⟨hd, h.bound d hd⟩, And.left⟩
  | cons entry rs ih =>
    obtain ⟨name, handle⟩ := entry
    rw [withdraw_cons, ih (h.unregisterInstance name handle)]
    apply and_congr_left
    intro hkept
    obtain ⟨current, hcurrent⟩ := Table.contains_iff.mp hkept
    rcases r.unregisterInstance_cases name handle with ⟨_, _, _, hstep⟩ | ⟨_, hstep⟩
    · rw [hstep] at hcurrent ⊢
      -- a name that is still bound at the end is not the one removed here
      have hname : d ≠ name := by
        rintro rfl
        have hget := ((get?_withdraw_eq_some_iff _ rs d current).mp hcurrent).1
        rw [get?_remove, if_pos rfl] at hget
        cases hget
      simp only [CompilerRegistry.remove]
      split
      · rename_i hdefault
        rw [hdefault]
        simp [Ne.symm hname]
      · rfl
    · rw [hstep]

end Sound

end CompilerRegistry

end QuantumCompiler
