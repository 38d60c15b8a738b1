import QuantumCompiler.Proofs.Host.Rollback
import QuantumCompiler.Proofs.Host.Unload

/-!
# The default compiler

The name of the default is kept beside the table of compilers. That it names a
registered compiler is part of `Sound`, and so holds in every state that a run reaches.
Here it is shown how the default changes from one action to the next.

Actions that only take registrations away make the registry smaller (`Shrinks`): what is
bound was bound before, and the default is the one from before as far as its name is
still bound. Withdrawing a plugin's registrations is of this kind even where its routine
registers others in between, and even if one of these is the default for a while.
Shrinking is transitive, so it covers unloading all plugins. Actions that only register
leave a default alone. The one other way to change it is to set it.

* `Shrinks.trans`, `Unloaded.shrinks`, `RolledBack.shrinks` — the actions that remove;
* `keptOrRemoved_load` — loading, whether or not it fails;
* `keptOrRemoved_act` — every action that does not set the default;
* `default_bound_and_sticky` — the default never dangles, and it is kept until it is set
  or its entry goes.
-/

namespace QuantumCompiler

namespace CompilerRegistry

theorem setDefault_of_contains {r : CompilerRegistry} {name : String}
    (h : r.contains name = true) : r.setDefault name = .ok { r with defaultName := some name } :=
  if_pos h

theorem setDefault_of_not_contains {r : CompilerRegistry} {name : String}
    (h : r.contains name = false) : r.setDefault name = .error (.unknownCompiler name) := by
  unfold setDefault
  rw [if_neg (by rw [h]; exact Bool.false_ne_true)]

theorem isOk_setDefault (r : CompilerRegistry) (name : String) :
    (r.setDefault name).isOk = r.contains name := by
  cases h : r.contains name with
  | true => rw [setDefault_of_contains h]; rfl
  | false => rw [setDefault_of_not_contains h]; rfl

/-- A sound registry has a default compiler if it has the name of one. -/
theorem Sound.getDefault_eq_error_iff {r : CompilerRegistry} (h : r.Sound) :
    (∃ fault, r.getDefault = .error fault) ↔ r.defaultName = none := by
  unfold getDefault
  cases hdefault : r.defaultName with
  | none => simp
  | some d =>
    obtain ⟨handle, hhandle⟩ := Table.contains_iff.mp (h.bound d hdefault)
    simp [CompilerRegistry.get, hhandle]

-- ---------------------------------------------------------------------------
-- Registries that get smaller
-- ---------------------------------------------------------------------------

/-- What is bound in `r'` is bound in `r`, and the default of `r'` is that of `r` as far as
its name is bound in `r'`. -/
structure Shrinks (r r' : CompilerRegistry) : Prop where
  bindings : ∀ n handle, r'.compilers.get? n = some handle → r.compilers.get? n = some handle
  default : r'.defaultName = r.defaultName.filter r'.contains

theorem Shrinks.contains {r r' : CompilerRegistry} (h : r.Shrinks r') {n : String}
    (hn : r'.contains n = true) : r.contains n = true := by
  obtain ⟨handle, hhandle⟩ := Table.contains_iff.mp hn
  exact Table.contains_iff.mpr ⟨handle, h.bindings n handle hhandle⟩

theorem Sound.shrinks_self {r : CompilerRegistry} (h : r.Sound) : r.Shrinks r := by
  refine ⟨fun n handle hn => hn, ?_⟩
  cases hdefault : r.defaultName with
  | none => rfl
  | some d => rw [Option.filter_some, if_pos (h.bound d hdefault)]

theorem Shrinks.trans {r r' r'' : CompilerRegistry} (h : r.Shrinks r') (h' : r'.Shrinks r'') :
    r.Shrinks r'' := by
  refine ⟨fun n handle hn => h.bindings n handle (h'.bindings n handle hn), ?_⟩
  rw [h'.default, h.default, Option.filter_filter]
  congr 1
  funext d
  cases hd : r''.contains d with
  | true => rw [h'.contains hd]; rfl
  | false => rw [Bool.and_false]

theorem Sound.shrinks_remove {r : CompilerRegistry} (h : r.Sound) (name : String) :
    r.Shrinks (r.remove name) := by
  have hget := r.get?_remove name
  refine ⟨?_, ?_⟩
  · intro n handle hn
    rw [hget] at hn
    split at hn
    · cases hn
    · exact hn
  · show (if r.defaultName = some name then none else r.defaultName) = _
    cases hdefault : r.defaultName with
    | none => rfl
    | some d =>
      rw [Option.filter_some, contains, Table.contains, hget]
      by_cases hd : d = name
      · rw [if_pos (congrArg some hd), if_pos hd]
        rfl
      · have hbound := h.bound d hdefault
        rw [contains, Table.contains] at hbound
        rw [if_neg (fun heq => hd (Option.some.inj heq)), if_neg hd, if_pos hbound]

theorem Sound.shrinks_unregister {r : CompilerRegistry} (h : r.Sound) (name : String) :
    r.Shrinks (r.unregister name).1 := by
  rcases r.unregister_cases name with hstep | hstep
  · rw [hstep]
    exact h.shrinks_remove name
  · rw [hstep]
    exact h.shrinks_self

theorem Sound.shrinks_unregisterInstance {r : CompilerRegistry} (h : r.Sound) (name : String)
    (handle : Handle) : r.Shrinks (r.unregisterInstance name handle).1 := by
  rcases r.unregisterInstance_cases name handle with ⟨_, _, _, hstep⟩ | ⟨_, hstep⟩
  · rw [hstep]
    exact h.shrinks_remove name
  · rw [hstep]
    exact h.shrinks_self

-- ---------------------------------------------------------------------------
-- A default that was there
-- ---------------------------------------------------------------------------

/-- What can become of a default `d` that is not replaced: it is still the default, or
there is none and `d` is not registered any more. -/
def KeptOrRemoved (r : CompilerRegistry) (d : String) : Prop :=
  r.defaultName = some d ∨ r.defaultName = none ∧ r.contains d = false

theorem Shrinks.keptOrRemoved {r r' : CompilerRegistry} (h : r.Shrinks r') {d : String}
    (hd : r.defaultName = some d) : r'.KeptOrRemoved d := by
  have hdefault := h.default
  rw [hd, Option.filter_some] at hdefault
  cases hbound : r'.contains d with
  | true => exact Or.inl (by simpa [hbound] using hdefault)
  | false => exact Or.inr ⟨by simpa [hbound] using hdefault, hbound⟩

theorem defaultName_registerAll_of_some {r : CompilerRegistry} {d : String}
    (hd : r.defaultName = some d) (rs : Registrations) :
    (r.registerAll rs).defaultName = some d := by
  rw [defaultName_registerAll, hd]
  rfl

end CompilerRegistry

namespace Host

-- ---------------------------------------------------------------------------
-- Unloading and rolling back
-- ---------------------------------------------------------------------------

theorem Unloaded.shrinks {h after : Host} {name : String} {l : LoadedPlugin}
    (hu : h.Unloaded name l after) : h.registry.Shrinks after.registry := by
  refine ⟨?_, hu.default⟩
  intro n handle hn
  by_cases htaken : h.Takes l n
  · rw [hu.taken n htaken] at hn
    cases hn
  · rwa [hu.left n htaken] at hn

theorem RolledBack.shrinks {h after : Host} {rs : Registrations} (hb : h.RolledBack rs after)
    (hs : h.Sound) : h.registry.Shrinks after.registry := by
  refine ⟨?_, ?_⟩
  · intro n handle hn
    rw [hb.bindings] at hn
    split at hn
    · cases hn
    · exact hn
  · apply Option.ext
    intro d
    rw [hb.default, Option.filter_eq_some_iff]
    apply and_congr_right
    intro hd
    -- a default is bound, so it is bound afterwards unless it is one of the names
    have hbound := hs.registry.bound d hd
    rw [CompilerRegistry.contains, Table.contains] at hbound ⊢
    rw [hb.bindings]
    by_cases hmem : d ∈ rs.names
    · simp [hmem]
    · simp [hmem, hbound]

theorem Sound.shrinks_unload {h : Host} (hs : h.Sound) (name : String) :
    h.registry.Shrinks (h.unload name).1.registry := by
  cases hl : h.plugins.get? name with
  | none =>
    rw [unload_of_none hl]
    exact hs.registry.shrinks_self
  | some l => exact (hs.unloaded hl).shrinks

theorem Sound.shrinks_unloadEach {h : Host} (hs : h.Sound) (names : List String) :
    h.registry.Shrinks (h.unloadEach names).registry := by
  induction names generalizing h with
  | nil => exact hs.registry.shrinks_self
  | cons name names ih => exact (hs.shrinks_unload name).trans (ih (hs.unload name))

-- ---------------------------------------------------------------------------
-- Loading
-- ---------------------------------------------------------------------------

/-- A plugin that is loaded leaves the default alone, and one that fails to start takes it
away only along with its name. -/
theorem keptOrRemoved_load {h : Host} (hs : h.Sound) (p : Plugin) {d : String}
    (hd : h.registry.defaultName = some d) :
    ((h.load p).2 = .ok () → (h.load p).1.registry.defaultName = some d) ∧
      (h.load p).1.registry.KeptOrRemoved d := by
  rcases h.load_cases p with ⟨-, hload⟩ | ⟨fault, -, -, hload⟩ | ⟨-, -, hload⟩
  · rw [hload]
    exact ⟨fun _ => hd, Or.inl hd⟩
  · rw [hload]
    have hshrinks := (hs.rolledBack p.start.registrations).shrinks hs
    exact ⟨fun hok => (by cases hok), hshrinks.keptOrRemoved hd⟩
  · rw [hload]
    have hkept := CompilerRegistry.defaultName_registerAll_of_some hd p.start.registrations
    exact ⟨fun _ => hkept, Or.inl hkept⟩

theorem keptOrRemoved_loadEach {h : Host} (hs : h.Sound) (ps : List Plugin) {d : String}
    (hd : h.registry.defaultName = some d) : (h.loadEach ps).1.registry.KeptOrRemoved d := by
  induction ps generalizing h with
  | nil => exact Or.inl hd
  | cons p ps ih =>
    obtain ⟨hkept, hkeptOrRemoved⟩ := keptOrRemoved_load hs p hd
    have hload := hs.load p
    unfold loadEach
    split
    · rename_i after hafter
      rw [hafter] at hkept hload
      exact ih hload (hkept rfl)
    · rename_i after fault hafter
      rw [hafter] at hkeptOrRemoved
      exact hkeptOrRemoved

-- ---------------------------------------------------------------------------
-- Actions
-- ---------------------------------------------------------------------------

/-- The action makes `d` the default by a call that succeeds: the call is the action
itself, or it ends the loading of the built-in plugins. -/
def Sets (h : Host) : Action → String → Prop
  | .setDefault name, d => name = d ∧ (h.registry.setDefault d).isOk = true
  | .loadBuiltins id s, d =>
    (h.loadEach (enabledPlugins id s)).2 = .ok () ∧ s.compilers.defaultName = some d ∧
      ((h.loadEach (enabledPlugins id s)).1.registry.setDefault d).isOk = true
  | _, _ => False

theorem setDefault_of_contains {h : Host} {name : String}
    (hname : h.registry.contains name = true) :
    h.setDefault name = { h with registry := { h.registry with defaultName := some name } } := by
  unfold setDefault
  rw [CompilerRegistry.setDefault_of_contains hname]

theorem setDefault_of_error {h : Host} {name : String} {fault : RegistryFault}
    (hset : h.registry.setDefault name = .error fault) : h.setDefault name = h := by
  unfold setDefault
  rw [hset]

theorem setDefault_of_not_contains {h : Host} {name : String}
    (hname : h.registry.contains name = false) : h.setDefault name = h :=
  setDefault_of_error (CompilerRegistry.setDefault_of_not_contains hname)

theorem defaultName_act_of_sets {h : Host} {action : Action} {d : String}
    (hsets : h.Sets action d) : (h.act action).registry.defaultName = some d := by
  cases action with
  | setDefault name =>
    obtain ⟨rfl, hset⟩ := hsets
    rw [CompilerRegistry.isOk_setDefault] at hset
    show (h.setDefault name).registry.defaultName = some name
    rw [setDefault_of_contains hset]
  | loadBuiltins id s =>
    obtain ⟨hload, hname, hset⟩ := hsets
    rw [CompilerRegistry.isOk_setDefault] at hset
    show (h.loadBuiltins id s).1.registry.defaultName = some d
    rw [loadBuiltins_of_ok hload, hname]
    dsimp only
    rw [setDefault_of_contains hset]
  | _ => exact False.elim hsets

/-- An action that does not set the default keeps it or removes its entry. -/
theorem keptOrRemoved_act {h : Host} (hs : h.Sound) {action : Action}
    (hsets : ∀ d', ¬ h.Sets action d') {d : String} (hd : h.registry.defaultName = some d) :
    (h.act action).registry.KeptOrRemoved d := by
  have hregister : ∀ name handle,
      (h.registry.registerAs name handle).defaultName = some d := fun name handle =>
    CompilerRegistry.defaultName_registerAll_of_some hd [(name, handle)]
  cases action with
  | register handle => exact Or.inl (hregister _ handle)
  | registerAs name handle => exact Or.inl (hregister name handle)
  | unregister name => exact (hs.registry.shrinks_unregister name).keptOrRemoved hd
  | unregisterInstance name handle =>
    exact (hs.registry.shrinks_unregisterInstance name handle).keptOrRemoved hd
  | setDefault name =>
    have hname : h.registry.contains name = false := by
      simpa [Sets, CompilerRegistry.isOk_setDefault] using hsets name
    show (h.setDefault name).registry.KeptOrRemoved d
    rw [setDefault_of_not_contains hname]
    exact Or.inl hd
  | load p => exact (keptOrRemoved_load hs p hd).2
  | unload name => exact (hs.shrinks_unload name).keptOrRemoved hd
  | unloadAll => exact (hs.shrinks_unloadEach h.loaded).keptOrRemoved hd
  | loadBuiltins id s =>
    have hkept := keptOrRemoved_loadEach hs (enabledPlugins id s) hd
    show (h.loadBuiltins id s).1.registry.KeptOrRemoved d
    cases hload : (h.loadEach (enabledPlugins id s)).2 with
    | error fault =>
      rw [loadBuiltins_of_error hload]
      exact hkept
    | ok _ =>
      rw [loadBuiltins_of_ok hload]
      cases hname : s.compilers.defaultName with
      | none => exact hkept
      | some name =>
        -- the configured name is not registered, or else it would be set
        have hunbound : (h.loadEach (enabledPlugins id s)).1.registry.contains name = false := by
          simpa [Sets, CompilerRegistry.isOk_setDefault, hload, hname] using hsets name
        dsimp only
        rw [setDefault_of_not_contains hunbound]
        exact hkept

/-- **The default never dangles and is sticky.** In every state that a run reaches, the
default is a registered name, so the default compiler is there unless no default is set.
From there, an action that sets a default changes it to the name it sets. Any other
action keeps the default, or there is none any more and its entry, which was there
before, is gone. A call that fails to set the default changes nothing. -/
theorem default_bound_and_sticky {h : Host} (hr : h.Reachable) :
    (∀ d, h.registry.defaultName = some d → h.registry.contains d = true) ∧
    ((∃ fault, h.registry.getDefault = .error fault) ↔ h.registry.defaultName = none) ∧
    (∀ action d, h.registry.defaultName = some d →
      (∀ d', h.Sets action d' → (h.act action).registry.defaultName = some d') ∧
      ((∀ d', ¬ h.Sets action d') →
        (h.act action).registry.defaultName = some d ∨
        (h.act action).registry.defaultName = none ∧ h.registry.contains d = true ∧
          (h.act action).registry.contains d = false)) ∧
    (∀ name fault, h.registry.setDefault name = .error fault → h.act (.setDefault name) = h) ∧
    (∀ id s name fault, (h.loadEach (enabledPlugins id s)).2 = .ok () →
      s.compilers.defaultName = some name →
      (h.loadEach (enabledPlugins id s)).1.registry.setDefault name = .error fault →
      h.loadBuiltins id s = ((h.loadEach (enabledPlugins id s)).1, .error fault)) := by
  have hs := hr.sound
  refine ⟨hs.registry.bound, hs.registry.getDefault_eq_error_iff, ?_, ?_, ?_⟩
  · intro action d hd
    refine ⟨fun d' => defaultName_act_of_sets, ?_⟩
    intro hsets
    rcases keptOrRemoved_act hs hsets hd with hkept | ⟨hnone, hgone⟩
    · exact Or.inl hkept
    · exact Or.inr ⟨hnone, hs.registry.bound d hd, hgone⟩
  · intro name fault hset
    exact setDefault_of_error hset
  · intro id s name fault hload hname hset
    rw [loadBuiltins_of_ok hload, hname]
    dsimp only
    rw [setDefault_of_error hset, hset]
    rfl

/-- Settings with the annealer only. -/
def annealerOnly (defaultName : Option String) : Settings :=
  { compilers := { defaultName := defaultName, qmi := { enabled := false } } }

/-- A failed load that takes the default's name away, and a default that is set by loading
the built-in plugins. -/
theorem default_bound_and_sticky_sample :
    sampleHost.Reachable ∧ sampleHost.registry.defaultName = some "qmi" ∧
      sampleHost.registry.contains "qmi" = true ∧
      (sampleHost.act (.load (failingPlugin "qmi" "b"))).registry.defaultName = none ∧
      (sampleHost.act (.load (failingPlugin "qmi" "b"))).registry.contains "qmi" = false ∧
      (sampleHost.act (.loadBuiltins 4 (annealerOnly (some "annealer")))).registry.defaultName =
        some "annealer" ∧
      sampleHost.act (.setDefault "b") = sampleHost := by
  have hr : sampleHost.Reachable := ⟨_, rfl⟩
  have hd : sampleHost.registry.defaultName = some "qmi" := by decide
  obtain ⟨hbound, -, hsticky, hfailed, -⟩ := default_bound_and_sticky hr
  have hload := (hsticky (.load (failingPlugin "qmi" "b")) "qmi" hd).2 fun _ hsets => hsets
  have hgone : (sampleHost.act (.load (failingPlugin "qmi" "b"))).registry.defaultName ≠
      some "qmi" := by decide
  obtain ⟨hnone, -, hremoved⟩ := hload.resolve_left hgone
  refine ⟨hr, hd, hbound "qmi" hd, hnone, hremoved, ?_, hfailed "b" _ rfl⟩
  exact (hsticky (.loadBuiltins 4 (annealerOnly (some "annealer"))) "qmi" hd).1 "annealer"
    ⟨rfl, rfl, rfl⟩

end Host

end QuantumCompiler
