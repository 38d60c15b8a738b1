import QuantumCompiler.Host.Builtin
import QuantumCompiler.Proofs.Host.Registry

/-!
# Runs of a host

What users of a host can do to it is an `Action`; a run performs actions one after
the other, whether they succeed or fail. The states that matter are those that a run
reaches from the empty host.

`Host.Sound` holds of all of them: both tables are sorted and the default compiler is
a registered one. `act_sound` is the step, `Reachable.sound` the whole run.
-/

namespace QuantumCompiler

/-- What can be done to a host and its registry. -/
inductive Action where
  | register (handle : Handle)
  | registerAs (name : String) (handle : Handle)
  | unregister (name : String)
  | unregisterInstance (name : String) (handle : Handle)
  | setDefault (name : String)
  | load (p : Plugin)
  | unload (name : String)
  | unloadAll
  | loadBuiltins (id : Nat) (s : Settings)

namespace Host

/-- The host after the default is set, or as it was if that fails. -/
def setDefault (h : Host) (name : String) : Host :=
  match h.registry.setDefault name with
  | .ok registry => { h with registry := registry }
  | .error _ => h

theorem loadBuiltins_of_error {h : Host} {id : Nat} {s : Settings} {fault : RegistryFault}
    (hload : (h.loadEach (enabledPlugins id s)).2 = .error fault) :
    h.loadBuiltins id s = ((h.loadEach (enabledPlugins id s)).1, .error fault) := by
  unfold loadBuiltins
  split
  · rename_i hafter
    rw [hafter] at hload ⊢
    exact Prod.ext rfl hload
  · rename_i hafter
    rw [hafter] at hload
    cases hload

/-- Once the plugins are loaded, the configured default, if there is one, is set. -/
theorem loadBuiltins_of_ok {h : Host} {id : Nat} {s : Settings}
    (hload : (h.loadEach (enabledPlugins id s)).2 = .ok ()) :
    h.loadBuiltins id s =
      match s.compilers.defaultName with
      | none => ((h.loadEach (enabledPlugins id s)).1, .ok ())
      | some name =>
        ((h.loadEach (enabledPlugins id s)).1.setDefault name,
          ((h.loadEach (enabledPlugins id s)).1.registry.setDefault name).map fun _ => ()) := by
  unfold loadBuiltins
  split
  · rename_i hafter
    rw [hafter] at hload
    cases hload
  · rename_i after hafter
    rw [hafter]
    cases s.compilers.defaultName with
    | none => rfl
    | some name =>
      dsimp only
      unfold setDefault
      cases after.registry.setDefault name <;> rfl

/-- The host after an action. -/
def act (h : Host) : Action → Host
  | .register handle => { h with registry := h.registry.register handle }
  | .registerAs name handle => { h with registry := h.registry.registerAs name handle }
  | .unregister name => { h with registry := (h.registry.unregister name).1 }
  | .unregisterInstance name handle =>
    { h with registry := (h.registry.unregisterInstance name handle).1 }
  | .setDefault name => h.setDefault name
  | .load p => (h.load p).1
  | .unload name => (h.unload name).1
  | .unloadAll => h.unloadAll
  | .loadBuiltins id s => (h.loadBuiltins id s).1

/-- The host after actions one after the other. -/
def run (h : Host) (actions : List Action) : Host :=
  actions.foldl act h

/-- A run from the empty host ends in this state. -/
def Reachable (h : Host) : Prop :=
  ∃ actions, empty.run actions = h

/-- The registry is sound and the table of plugins is sorted. -/
structure Sound (h : Host) : Prop where
  registry : h.registry.Sound
  sorted : h.plugins.Sorted

namespace Sound

variable {h : Host}

theorem empty : Host.empty.Sound :=
  ⟨CompilerRegistry.Sound.empty, Table.sorted_empty⟩

theorem load (hs : h.Sound) (p : Plugin) : (h.load p).1.Sound := by
  unfold Host.load
  split
  · exact hs
  · have hall := hs.registry.registerAll p.start.registrations
    cases p.start.outcome with
    | error fault => exact ⟨hall.withdraw p.start.registrations, hs.sorted⟩
    | ok _ => exact ⟨hall, hs.sorted.insert p.name _⟩

theorem unload (hs : h.Sound) (name : String) : (h.unload name).1.Sound := by
  unfold Host.unload
  split
  · exact hs
  · rename_i loaded _
    have hall := hs.registry.registerAll loaded.plugin.stop.registrations
    exact ⟨hall.withdraw _, hs.sorted.erase name⟩

theorem unloadEach (hs : h.Sound) (names : List String) : (h.unloadEach names).Sound := by
  induction names generalizing h with
  | nil => exact hs
  | cons name names ih => exact ih (hs.unload name)

theorem loadEach (hs : h.Sound) (ps : List Plugin) : (h.loadEach ps).1.Sound := by
  induction ps generalizing h with
  | nil => exact hs
  | cons p ps ih =>
    have hload := hs.load p
    unfold Host.loadEach
    split
    · rename_i after hafter
      rw [hafter] at hload
      exact ih hload
    · rename_i after fault hafter
      rw [hafter] at hload
      exact hload

theorem setDefault (hs : h.Sound) (name : String) : (h.setDefault name).Sound := by
  unfold Host.setDefault
  split
  · rename_i registry hset
    exact ⟨hs.registry.setDefault hset, hs.sorted⟩
  · exact hs

theorem loadBuiltins (hs : h.Sound) (id : Nat) (s : Settings) : (h.loadBuiltins id s).1.Sound := by
  have hload := hs.loadEach (enabledPlugins id s)
  unfold Host.loadBuiltins
  split
  · rename_i after fault hafter
    rw [hafter] at hload
    exact hload
  · rename_i after hafter
    rw [hafter] at hload
    split
    · exact hload
    · rename_i name _
      have hset := hload.setDefault name
      unfold Host.setDefault at hset
      split
      · rename_i registry hregistry
        rw [hregistry] at hset
        exact hset
      · exact hload

end Sound

/-- One action keeps a host sound. -/
theorem act_sound {h : Host} (hs : h.Sound) (action : Action) : (h.act action).Sound := by
  cases action with
  | register handle => exact ⟨hs.registry.registerAs _ handle, hs.sorted⟩
  | registerAs name handle => exact ⟨hs.registry.registerAs name handle, hs.sorted⟩
  | unregister name => exact ⟨hs.registry.unregister name, hs.sorted⟩
  | unregisterInstance name handle => exact ⟨hs.registry.unregisterInstance name handle, hs.sorted⟩
  | setDefault name => exact hs.setDefault name
  | load p => exact hs.load p
  | unload name => exact hs.unload name
  | unloadAll => exact hs.unloadEach h.loaded
  | loadBuiltins id s => exact hs.loadBuiltins id s

theorem run_sound {h : Host} (hs : h.Sound) (actions : List Action) : (h.run actions).Sound := by
  induction actions generalizing h with
  | nil => exact hs
  | cons action actions ih => exact ih (act_sound hs action)

/-- Every state that a run reaches is sound. -/
theorem Reachable.sound {h : Host} (hr : h.Reachable) : h.Sound := by
  obtain ⟨actions, rfl⟩ := hr
  exact run_sound Sound.empty actions

end Host

end QuantumCompiler
