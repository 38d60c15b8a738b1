import QuantumCompiler.Proofs.Host.Ledger
import QuantumCompiler.Proofs.Host.Rollback
import QuantumCompiler.Proofs.Host.Unload

/-!
# Whose a name is

A host does not keep the owner of an entry. `ownerOf` finds it by searching what was
recorded for each loaded plugin for the handle that the name stands for at the moment.
The answer is the tag that a `Ledger` writes beside the entry, in every state that a
careful run reaches.

A run is careful (`CarefulRun`) if nothing is registered under a name whose handle some
loaded plugin has recorded under that very name. A handle that was just created is
recorded nowhere, so plugins that register new handles are careful. What routines
register when they are stopped does not matter.

* `Tracks` — the relation between a ledger and a host;
* `Tracks.of_entries` — changes that leave the plugins alone;
* `Tracks.start`, `Tracks.retract`, `Tracks.unload` — changes that do not;
* `Tracks.act`, `Tracks.run` — one action on both sides, and a whole run;
* `Tracks.find?_owner` — the search finds the tag, in whatever order the plugins stand;
* `run_ownedAs` — what this says about the states of a run.
-/

namespace QuantumCompiler

-- ---------------------------------------------------------------------------
-- Careful runs
-- ---------------------------------------------------------------------------

namespace Host

/-- No loaded plugin has recorded the handle under the name. -/
def Unrecorded (h : Host) (name : String) (handle : Handle) : Prop :=
  ∀ x ∈ h.plugins.entries, x.2.owns name handle = false

/-- If the plugin is started, it registers no handle that another one has recorded under
the same name. -/
def CarefulLoad (h : Host) (p : Plugin) : Prop :=
  h.plugins.contains p.name = false → ∀ r ∈ p.start.registrations, h.Unrecorded r.1 r.2

def CarefulLoads (h : Host) : List Plugin → Prop
  | [] => True
  | p :: ps => h.CarefulLoad p ∧ (h.load p).1.CarefulLoads ps

/-- The action does not register, directly or for a plugin that it loads, a handle that a
loaded plugin has recorded under the same name. -/
def Careful (h : Host) : Action → Prop
  | .register handle => h.Unrecorded handle.compiler.name handle
  | .registerAs name handle => h.Unrecorded name handle
  | .load p => h.CarefulLoad p
  | .loadBuiltins id s => h.CarefulLoads (enabledPlugins id s)
  | _ => True

def CarefulRun (h : Host) : List Action → Prop
  | [] => True
  | action :: actions => h.Careful action ∧ (h.act action).CarefulRun actions

-- Runs are finite, so whether one is careful can be computed.

instance (h : Host) (name : String) (handle : Handle) : Decidable (h.Unrecorded name handle) :=
  inferInstanceAs (Decidable (∀ x ∈ h.plugins.entries, x.2.owns name handle = false))

instance (h : Host) (p : Plugin) : Decidable (h.CarefulLoad p) :=
  inferInstanceAs (Decidable (_ → ∀ r ∈ p.start.registrations, h.Unrecorded r.1 r.2))

instance decidableCarefulLoads : (h : Host) → (ps : List Plugin) → Decidable (h.CarefulLoads ps)
  | _, [] => isTrue trivial
  | h, p :: ps =>
    @instDecidableAnd _ _ inferInstance (decidableCarefulLoads (h.load p).1 ps)

instance (h : Host) : (action : Action) → Decidable (h.Careful action)
  | .register handle => inferInstanceAs (Decidable (h.Unrecorded handle.compiler.name handle))
  | .registerAs name handle => inferInstanceAs (Decidable (h.Unrecorded name handle))
  | .load p => inferInstanceAs (Decidable (h.CarefulLoad p))
  | .loadBuiltins id s => inferInstanceAs (Decidable (h.CarefulLoads (enabledPlugins id s)))
  | .unregister _ | .unregisterInstance _ _ | .setDefault _ | .unload _ | .unloadAll =>
    isTrue trivial

instance decidableCarefulRun :
    (h : Host) → (actions : List Action) → Decidable (h.CarefulRun actions)
  | _, [] => isTrue trivial
  | h, action :: actions =>
    @instDecidableAnd _ _ inferInstance (decidableCarefulRun (h.act action) actions)

end Host

-- ---------------------------------------------------------------------------
-- The relation
-- ---------------------------------------------------------------------------

/-- The registry and the ledger bind the names alike. -/
def Mirrors (l : Ledger) (r : CompilerRegistry) : Prop :=
  ∀ n, r.compilers.get? n = (l.entry n).map (·.handle)

theorem Mirrors.recordAll {l : Ledger} {r : CompilerRegistry} (h : Mirrors l r)
    (owner : Option String) (rs : Registrations) :
    Mirrors (l.recordAll owner rs) (r.registerAll rs) := by
  induction rs generalizing l r with
  | nil => exact h
  | cons entry rs ih =>
    obtain ⟨name, handle⟩ := entry
    apply ih
    intro n
    rw [CompilerRegistry.get?_registerAs]
    show _ = Option.map _ (if n = name then some ⟨handle, owner⟩ else l.entry n)
    split
    · rfl
    · exact h n

theorem Mirrors.remove {l : Ledger} {r : CompilerRegistry} (h : Mirrors l r) (name : String) :
    Mirrors (l.remove name) (r.remove name) := by
  intro n
  rw [CompilerRegistry.get?_remove]
  show _ = Option.map _ (if n = name then none else l.entry n)
  split
  · rfl
  · exact h n

/-- The ledger says what the host can find out. Of an entry, a loaded plugin has recorded
the handle under the name exactly if the entry is tagged with that plugin, and tags are
names of loaded plugins. -/
structure Tracks (l : Ledger) (h : Host) : Prop where
  sound : h.Sound
  sorted : l.plugins.Sorted
  bindings : Mirrors l h.registry
  plugins : ∀ q, l.plugins.get? q = (h.plugins.get? q).map (·.plugin)
  recorded : ∀ n e q loaded, l.entry n = some e → h.plugins.get? q = some loaded →
    (loaded.recorded.Records n e.handle ↔ e.owner = some q)
  loaded : ∀ n e q, l.entry n = some e → e.owner = some q → h.plugins.contains q = true

namespace Tracks

variable {l : Ledger} {h : Host}

theorem empty : Tracks Ledger.empty Host.empty where
  sound := Host.Sound.empty
  sorted := Table.sorted_empty
  bindings := fun _ => rfl
  plugins := fun _ => rfl
  recorded := fun _ _ _ _ hentry => by cases hentry
  loaded := fun _ _ _ hentry => by cases hentry

theorem contains_eq (ht : Tracks l h) (q : String) :
    l.plugins.contains q = h.plugins.contains q := by
  rw [Table.contains, Table.contains, ht.plugins, Option.isSome_map]

theorem names_eq (ht : Tracks l h) : l.plugins.names = h.loaded :=
  ht.sorted.names_eq ht.sound.sorted ht.contains_eq

theorem not_records (ht : Tracks l h) {name : String} {handle : Handle}
    (hunrecorded : h.Unrecorded name handle) {q : String} {loaded : LoadedPlugin}
    (hloaded : h.plugins.get? q = some loaded) : ¬ loaded.recorded.Records name handle := by
  intro hrecords
  have howns := hunrecorded (q, loaded) (ht.sound.sorted.mem_entries_iff.mpr hloaded)
  rw [LoadedPlugin.owns_iff.mpr hrecords] at howns
  cases howns

/-- Changes that leave the plugins alone keep the relation if each entry afterwards is one
from before, or one that is nobody's and that no plugin has recorded. -/
theorem of_entries (ht : Tracks l h) {l' : Ledger} {h' : Host} (hs : h'.Sound)
    (hl : l'.plugins = l.plugins) (hh : h'.plugins = h.plugins)
    (hbindings : Mirrors l' h'.registry)
    (hentries : ∀ n e, l'.entry n = some e →
      l.entry n = some e ∨ e.owner = none ∧ h.Unrecorded n e.handle) :
    Tracks l' h' where
  sound := hs
  sorted := hl ▸ ht.sorted
  bindings := hbindings
  plugins := by rw [hl, hh]; exact ht.plugins
  recorded := by
    intro n e q loaded hentry hloaded
    rw [hh] at hloaded
    rcases hentries n e hentry with hold | ⟨hnobody, hunrecorded⟩
    · exact ht.recorded n e q loaded hold hloaded
    · rw [hnobody]
      exact ⟨fun hrecords => absurd hrecords (ht.not_records hunrecorded hloaded), nofun⟩
  loaded := by
    intro n e q hentry howner
    rw [hh]
    rcases hentries n e hentry with hold | ⟨hnobody, -⟩
    · exact ht.loaded n e q hold howner
    · rw [hnobody] at howner
      cases howner

-- ---------------------------------------------------------------------------
-- Direct changes
-- ---------------------------------------------------------------------------

theorem record (ht : Tracks l h) {name : String} {handle : Handle}
    (hunrecorded : h.Unrecorded name handle) :
    Tracks (l.record none name handle)
      { h with registry := h.registry.registerAs name handle } := by
  refine ht.of_entries ⟨ht.sound.registry.registerAs name handle, ht.sound.sorted⟩ rfl rfl
    (ht.bindings.recordAll none [(name, handle)]) ?_
  intro n e hentry
  simp only [Ledger.record] at hentry
  split at hentry
  · rename_i hn
    obtain rfl := Option.some.inj hentry
    exact Or.inr ⟨rfl, hn ▸ hunrecorded⟩
  · exact Or.inl hentry

theorem remove (ht : Tracks l h) (name : String) :
    Tracks (l.remove name) { h with registry := h.registry.remove name } := by
  refine ht.of_entries ⟨ht.sound.registry.remove name, ht.sound.sorted⟩ rfl rfl
    (ht.bindings.remove name) ?_
  intro n e hentry
  simp only [Ledger.remove] at hentry
  split at hentry
  · cases hentry
  · exact Or.inl hentry

theorem unregister (ht : Tracks l h) (name : String) :
    Tracks (l.remove name) { h with registry := (h.registry.unregister name).1 } := by
  cases hget : h.registry.compilers.get? name with
  | some handle =>
    rw [show h.registry.unregister name = (h.registry.remove name, some handle) by
      rw [CompilerRegistry.unregister, hget]]
    exact ht.remove name
  | none =>
    rw [show h.registry.unregister name = (h.registry, none) by
      rw [CompilerRegistry.unregister, hget]]
    -- the ledger has no entry to remove either
    have hnone : l.entry name = none := by
      have hmirror := ht.bindings name
      rw [hget] at hmirror
      exact Option.map_eq_none_iff.mp hmirror.symm
    have hsame : l.remove name = l := by
      unfold Ledger.remove
      congr 1
      funext n
      split
      · rename_i hn
        rw [hn, hnone]
      · rfl
    rw [hsame]
    exact ht

theorem unregisterInstance (ht : Tracks l h) (name : String) (handle : Handle) :
    Tracks (l.removeInstance name handle)
      { h with registry := (h.registry.unregisterInstance name handle).1 } := by
  have hmirror := ht.bindings name
  unfold Ledger.removeInstance CompilerRegistry.unregisterInstance
  cases hentry : l.entry name with
  | none =>
    rw [hentry] at hmirror
    rw [hmirror]
    exact ht
  | some e =>
    rw [hentry] at hmirror
    rw [hmirror]
    dsimp only [Option.map_some]
    split
    · exact ht.remove name
    · exact ht

theorem setDefault (ht : Tracks l h) (name : String) : Tracks l (h.setDefault name) := by
  have hs := ht.sound.setDefault name
  unfold Host.setDefault at hs ⊢
  split
  · rename_i registry hset
    rw [hset] at hs
    have hcompilers : registry.compilers = h.registry.compilers := by
      unfold CompilerRegistry.setDefault at hset
      split at hset
      · cases hset; rfl
      · cases hset
    refine ht.of_entries hs rfl rfl ?_ fun n e hentry => Or.inl hentry
    intro n
    show registry.compilers.get? n = _
    rw [hcompilers]
    exact ht.bindings n
  · exact ht

-- ---------------------------------------------------------------------------
-- Loading
-- ---------------------------------------------------------------------------

/-- The tag of a plugin that is not loaded occurs nowhere. -/
theorem owner_ne (ht : Tracks l h) {q : String} (hq : h.plugins.contains q = false) {n : String}
    {e : OwnedEntry} (hentry : l.entry n = some e) : e.owner ≠ some q := by
  intro howner
  have hloaded := ht.loaded n e q hentry howner
  rw [hq] at hloaded
  cases hloaded

/-- What a plugin that fails to start has registered goes by its tag. -/
theorem retract (ht : Tracks l h) {p : Plugin} (hp : h.plugins.contains p.name = false) :
    Tracks ((l.recordAll (some p.name) p.start.registrations).removeOwned p.name)
      (h.retract p.start.registrations) := by
  have hafter : ∀ n,
      ((l.recordAll (some p.name) p.start.registrations).removeOwned p.name).entry n =
        if n ∈ p.start.registrations.names then none else l.entry n := by
    intro n
    rw [Ledger.entry_removeOwned_recordAll]
    congr 1
    cases hentry : l.entry n with
    | none => rfl
    | some e => simp [ht.owner_ne hp hentry]
  refine ht.of_entries (ht.sound.retract _) (Ledger.plugins_recordAll _ _ _) rfl ?_ ?_
  · intro n
    rw [hafter, (ht.sound.rolledBack p.start.registrations).bindings]
    split
    · rfl
    · exact ht.bindings n
  · intro n e hentry
    rw [hafter] at hentry
    split at hentry
    · cases hentry
    · exact Or.inl hentry

/-- A plugin that starts becomes the owner of the names it registered, and of no others. -/
theorem start (ht : Tracks l h) {p : Plugin} (hp : h.plugins.contains p.name = false)
    (hcareful : h.CarefulLoad p) (hs : (Host.mk (h.registry.registerAll p.start.registrations)
      (h.plugins.insert p.name ⟨p, p.start.registrations⟩)).Sound) :
    Tracks { l.recordAll (some p.name) p.start.registrations with
        plugins := l.plugins.insert p.name p }
      ⟨h.registry.registerAll p.start.registrations,
        h.plugins.insert p.name ⟨p, p.start.registrations⟩⟩ where
  sound := hs
  sorted := ht.sorted.insert p.name p
  bindings := ht.bindings.recordAll (some p.name) p.start.registrations
  plugins := by
    intro q
    rw [Table.get?_insert, Table.get?_insert]
    split
    · rfl
    · exact ht.plugins q
  recorded := by
    intro n e q loaded hentry hloaded
    rw [Table.get?_insert] at hloaded
    by_cases hn : n ∈ p.start.registrations.names
    · obtain ⟨handle, hmem, hlast⟩ := l.entry_recordAll_of_mem (some p.name) hn
      obtain rfl : ⟨handle, some p.name⟩ = e := Option.some.inj (hlast.symm.trans hentry)
      split at hloaded
      · rename_i hq
        obtain rfl := Option.some.inj hloaded
        exact ⟨fun _ => congrArg some hq.symm, fun _ => ⟨handle, hmem, rfl⟩⟩
      · rename_i hq
        have hunrecorded := ht.not_records (hcareful hp (n, handle) hmem) hloaded
        exact ⟨fun hrecords => absurd hrecords hunrecorded,
          fun howner => absurd (Option.some.inj howner).symm hq⟩
    · rw [l.entry_recordAll_of_notMem (some p.name) hn] at hentry
      split at hloaded
      · rename_i hq
        obtain rfl := Option.some.inj hloaded
        constructor
        · rintro ⟨handle, hmem, -⟩
          exact absurd (Registrations.mem_names.mpr ⟨handle, hmem⟩) hn
        · intro howner
          exact absurd (hq ▸ howner) (ht.owner_ne hp hentry)
      · exact ht.recorded n e q loaded hentry hloaded
  loaded := by
    intro n e q hentry howner
    rw [Table.contains, Table.get?_insert]
    split
    · rfl
    · rename_i hq
      by_cases hn : n ∈ p.start.registrations.names
      · obtain ⟨handle, -, hlast⟩ := l.entry_recordAll_of_mem (some p.name) hn
        obtain rfl : ⟨handle, some p.name⟩ = e := Option.some.inj (hlast.symm.trans hentry)
        exact absurd (Option.some.inj howner).symm hq
      · rw [l.entry_recordAll_of_notMem (some p.name) hn] at hentry
        exact ht.loaded n e q hentry howner

theorem load (ht : Tracks l h) {p : Plugin} (hcareful : h.CarefulLoad p) :
    Tracks (l.load p).1 (h.load p).1 ∧ (l.load p).2 = (h.load p).2 := by
  have hs := ht.sound.load p
  unfold Ledger.load
  rw [ht.contains_eq]
  rcases h.load_cases p with ⟨hp, hload⟩ | ⟨fault, hp, hstart, hload⟩ | ⟨hp, hstart, hload⟩
  · rw [if_pos hp, hload]
    exact ⟨ht, rfl⟩
  · rw [if_neg (by simp [hp]), hload, hstart]
    exact ⟨ht.retract hp, rfl⟩
  · rw [hload] at hs
    rw [if_neg (by simp [hp]), hload, hstart]
    exact ⟨ht.start hp hcareful hs, rfl⟩

theorem loadEach (ht : Tracks l h) {ps : List Plugin} (hcareful : h.CarefulLoads ps) :
    Tracks (l.loadEach ps) (h.loadEach ps).1 := by
  induction ps generalizing l h with
  | nil => exact ht
  | cons p ps ih =>
    obtain ⟨hfirst, hrest⟩ := hcareful
    obtain ⟨hstep, hresult⟩ := ht.load hfirst
    unfold Ledger.loadEach Host.loadEach
    rcases hl : l.load p with ⟨l', lresult⟩
    rcases hh : h.load p with ⟨h', hresult'⟩
    rw [hl, hh] at hstep hresult
    rw [hh] at hrest
    dsimp only at hstep hresult hrest
    subst hresult
    cases lresult with
    | ok _ => exact ih hstep hrest
    | error fault => exact hstep

-- ---------------------------------------------------------------------------
-- Unloading
-- ---------------------------------------------------------------------------

/-- An entry is tagged with a loaded plugin exactly if unloading the plugin takes it by the
recorded handle. So taking away by the tag leaves what unloading leaves. -/
theorem entry_stop (ht : Tracks l h) {name : String} {own : LoadedPlugin}
    (hown : h.plugins.get? name = some own) (n : String) :
    (h.Takes own n →
      ((l.recordAll (some name) own.plugin.stop.registrations).removeOwned name).entry n = none) ∧
    (¬ h.Takes own n →
      ((l.recordAll (some name) own.plugin.stop.registrations).removeOwned name).entry n =
        l.entry n) := by
  rw [Ledger.entry_removeOwned_recordAll]
  have hmirror := ht.bindings n
  cases hentry : l.entry n with
  | none => simp
  | some e =>
    rw [hentry] at hmirror
    have htag := ht.recorded n e name own hentry hown
    constructor
    · rintro (hstop | ⟨c, hc, hrecords⟩)
      · exact if_pos hstop
      · obtain rfl : e.handle = c := Option.some.inj (hmirror.symm.trans hc)
        simp [htag.mp hrecords]
    · intro hleft
      have hother : e.owner ≠ some name := fun howner =>
        hleft (Or.inr ⟨e.handle, hmirror, htag.mpr howner⟩)
      rw [if_neg fun hstop => hleft (Or.inl hstop)]
      simp [hother]

theorem unload (ht : Tracks l h) (name : String) : Tracks (l.unload name) (h.unload name).1 := by
  cases hown : h.plugins.get? name with
  | none =>
    have hnone : l.plugins.get? name = none := by rw [ht.plugins, hown]; rfl
    rw [Host.unload_of_none hown]
    unfold Ledger.unload
    rw [hnone]
    exact ht
  | some own =>
    have hsome : l.plugins.get? name = some own.plugin := by rw [ht.plugins, hown]; rfl
    have hu := ht.sound.unloaded hown
    have hs := ht.sound.unload name
    have hafter := ht.entry_stop hown
    unfold Ledger.unload
    rw [hsome]
    -- an entry that is left was there before and is not the plugin's
    have hleft : ∀ n e,
        ((l.recordAll (some name) own.plugin.stop.registrations).removeOwned name).entry n =
          some e → l.entry n = some e ∧ e.owner ≠ some name := by
      intro n e hentry
      have hnot : ¬ h.Takes own n := by
        intro htakes
        rw [(hafter n).1 htakes] at hentry
        cases hentry
      rw [(hafter n).2 hnot] at hentry
      have hmirror := ht.bindings n
      rw [hentry] at hmirror
      refine ⟨hentry, fun howner => hnot (Or.inr ⟨e.handle, hmirror, ?_⟩)⟩
      exact (ht.recorded n e name own hentry hown).mpr howner
    exact
      { sound := hs
        sorted := ht.sorted.erase name
        bindings := by
          intro n
          by_cases htakes : h.Takes own n
          · rw [hu.taken n htakes, (hafter n).1 htakes]
            rfl
          · rw [hu.left n htakes, (hafter n).2 htakes]
            exact ht.bindings n
        plugins := by
          intro q
          rw [Table.get?_erase, hu.plugins]
          split
          · rfl
          · exact ht.plugins q
        recorded := by
          intro n e q loaded hentry hloaded
          rw [hu.plugins] at hloaded
          split at hloaded
          · cases hloaded
          · exact ht.recorded n e q loaded (hleft n e hentry).1 hloaded
        loaded := by
          intro n e q hentry howner
          obtain ⟨hbefore, hother⟩ := hleft n e hentry
          have hq : q ≠ name := by
            rintro rfl
            exact hother howner
          rw [Table.contains, hu.plugins, if_neg hq]
          exact ht.loaded n e q hbefore howner }

theorem unloadEach (ht : Tracks l h) (names : List String) :
    Tracks (l.unloadEach names) (h.unloadEach names) := by
  induction names generalizing l h with
  | nil => exact ht
  | cons name names ih => exact ih (ht.unload name)

-- ---------------------------------------------------------------------------
-- Runs
-- ---------------------------------------------------------------------------

/-- One careful action on both sides. -/
theorem act (ht : Tracks l h) {action : Action} (hcareful : h.Careful action) :
    Tracks (l.act action) (h.act action) := by
  cases action with
  | register handle => exact ht.record hcareful
  | registerAs name handle => exact ht.record hcareful
  | unregister name => exact ht.unregister name
  | unregisterInstance name handle => exact ht.unregisterInstance name handle
  | setDefault name => exact ht.setDefault name
  | load p => exact (ht.load hcareful).1
  | unload name => exact ht.unload name
  | unloadAll =>
    show Tracks (l.unloadEach l.plugins.names) (h.unloadEach h.loaded)
    rw [ht.names_eq]
    exact ht.unloadEach h.loaded
  | loadBuiltins id s =>
    have hloads := ht.loadEach hcareful
    show Tracks (l.loadEach (Host.enabledPlugins id s)) (h.loadBuiltins id s).1
    cases hresult : (h.loadEach (Host.enabledPlugins id s)).2 with
    | error fault =>
      rw [Host.loadBuiltins_of_error hresult]
      exact hloads
    | ok _ =>
      rw [Host.loadBuiltins_of_ok hresult]
      cases s.compilers.defaultName with
      | none => exact hloads
      | some name => exact hloads.setDefault name

theorem run (ht : Tracks l h) {actions : List Action} (hcareful : h.CarefulRun actions) :
    Tracks (l.run actions) (h.run actions) := by
  induction actions generalizing l h with
  | nil => exact ht
  | cons action actions ih => exact ih (ht.act hcareful.1) hcareful.2

-- ---------------------------------------------------------------------------
-- The search
-- ---------------------------------------------------------------------------

/-- Searching the plugins in any order finds the tag of a name's entry. -/
theorem find?_owner (ht : Tracks l h) {n : String} {e : OwnedEntry} (hentry : l.entry n = some e)
    {es : List (String × LoadedPlugin)} (hes : ∀ x, x ∈ es ↔ x ∈ h.plugins.entries) :
    (es.find? fun x => x.2.owns n e.handle).map (·.1) = e.owner := by
  have hmem : ∀ q loaded, (q, loaded) ∈ es ↔ h.plugins.get? q = some loaded := fun q loaded =>
    (hes (q, loaded)).trans ht.sound.sorted.mem_entries_iff
  cases hfind : es.find? fun x => x.2.owns n e.handle with
  | some found =>
    obtain ⟨q, loaded⟩ := found
    have howns : loaded.owns n e.handle = true := by simpa using List.find?_some hfind
    have hloaded := (hmem q loaded).mp (List.mem_of_find?_eq_some hfind)
    exact ((ht.recorded n e q loaded hentry hloaded).mp (LoadedPlugin.owns_iff.mp howns)).symm
  | none =>
    cases howner : e.owner with
    | none => rfl
    | some q =>
      -- the tag is a loaded plugin, and that one would have been found
      obtain ⟨loaded, hloaded⟩ := Table.contains_iff.mp (ht.loaded n e q hentry howner)
      have hrecords := (ht.recorded n e q loaded hentry hloaded).mpr howner
      have hnot := List.find?_eq_none.mp hfind (q, loaded) ((hmem q loaded).mpr hloaded)
      exact absurd (LoadedPlugin.owns_iff.mpr hrecords) hnot

theorem ownerOf_eq (ht : Tracks l h) (n : String) : h.ownerOf n = l.tag n := by
  have hmirror := ht.bindings n
  unfold Ledger.tag
  cases hentry : l.entry n with
  | none =>
    rw [hentry] at hmirror
    exact Host.ownerOf_of_unbound hmirror
  | some e =>
    rw [hentry] at hmirror
    unfold Host.ownerOf
    rw [hmirror]
    exact ht.find?_owner hentry fun _ => Iff.rfl

end Tracks

-- ---------------------------------------------------------------------------
-- Owners in a run
-- ---------------------------------------------------------------------------

/-- What the ledger `l` says of the names in `h`. The two bind the names alike. The owner of
a name is the tag of its entry, and nobody if there is none. Tags are loaded plugins. No
two of these match what a name stands for, so that the order in which they are searched
does not matter. -/
structure OwnedAs (h : Host) (l : Ledger) : Prop where
  bindings : ∀ n, h.registry.compilers.get? n = (l.entry n).map (·.handle)
  owner : ∀ n, h.ownerOf n = l.tag n
  unbound : ∀ n, h.registry.compilers.get? n = none → h.ownerOf n = none
  loaded : ∀ n q, l.tag n = some q → q ∈ h.loaded
  unique : ∀ n c, h.registry.compilers.get? n = some c →
    ∀ x ∈ h.plugins.entries, ∀ y ∈ h.plugins.entries,
      x.2.owns n c = true → y.2.owns n c = true → x.1 = y.1
  order : ∀ n c, h.registry.compilers.get? n = some c →
    ∀ es : List (String × LoadedPlugin), es.Perm h.plugins.entries →
      (es.find? fun x => x.2.owns n c).map (·.1) = h.ownerOf n

theorem Tracks.ownedAs {l : Ledger} {h : Host} (ht : Tracks l h) : OwnedAs h l where
  bindings := ht.bindings
  owner := ht.ownerOf_eq
  unbound := fun _ => Host.ownerOf_of_unbound
  loaded := by
    intro n q htag
    obtain ⟨e, hentry, howner⟩ := Option.bind_eq_some_iff.mp htag
    exact ht.sound.sorted.mem_names_iff.mpr (ht.loaded n e q hentry howner)
  unique := by
    rintro n c hc ⟨q, loaded⟩ hx ⟨q', loaded'⟩ hy howns howns'
    obtain ⟨e, hentry, rfl⟩ := Option.map_eq_some_iff.mp ((ht.bindings n).symm.trans hc)
    have hq := (ht.recorded n e q loaded hentry (ht.sound.sorted.mem_entries_iff.mp hx)).mp
      (LoadedPlugin.owns_iff.mp howns)
    have hq' := (ht.recorded n e q' loaded' hentry (ht.sound.sorted.mem_entries_iff.mp hy)).mp
      (LoadedPlugin.owns_iff.mp howns')
    exact Option.some.inj (hq.symm.trans hq')
  order := by
    intro n c hc es hperm
    obtain ⟨e, hentry, rfl⟩ := Option.map_eq_some_iff.mp ((ht.bindings n).symm.trans hc)
    rw [ht.find?_owner hentry fun x => hperm.mem_iff, ht.ownerOf_eq, Ledger.tag, hentry]
    rfl

/-- **Ownership by identity is ownership by tag**, in every state of a careful run. -/
theorem run_ownedAs {actions : List Action} (hcareful : Host.empty.CarefulRun actions) :
    OwnedAs (Host.empty.run actions) (Ledger.empty.run actions) :=
  (Tracks.empty.run hcareful).ownedAs

/-- A plugin that takes over a name of another one, a direct registration over one of its
own, a plugin that fails to start, and the first plugin stopped at the end. -/
def contendedRun : List Action :=
  [.load Host.restlessPlugin,
    .load
      { name := "rival"
        start := { registrations := [("a", Host.sampleHandle 5), ("c", Host.sampleHandle 6),
          ("d", Host.sampleHandle 7)] } },
    .registerAs "d" (Host.sampleHandle 8),
    .load
      { name := "failing"
        start :=
          { registrations := [("b", Host.sampleHandle 9)]
            outcome := .error (.plugin "failing" "no device") } },
    .unload "vendor"]

/-- The rival keeps the name it took over. It has lost one to the direct registration and
one to the stop routine. -/
theorem run_ownedAs_contended :
    Host.empty.CarefulRun contendedRun ∧
      (Host.empty.run contendedRun).ownerOf "a" = some "rival" ∧
      (Host.empty.run contendedRun).ownerOf "c" = none ∧
      (Host.empty.run contendedRun).ownerOf "d" = none ∧
      "rival" ∈ (Host.empty.run contendedRun).loaded := by
  have hcareful : Host.empty.CarefulRun contendedRun := by decide
  have howned := run_ownedAs hcareful
  have ha : (Ledger.empty.run contendedRun).tag "a" = some "rival" := by decide
  have hc : (Ledger.empty.run contendedRun).tag "c" = none := by decide
  have hd : (Ledger.empty.run contendedRun).tag "d" = none := by decide
  exact ⟨hcareful, (howned.owner "a").trans ha, (howned.owner "c").trans hc,
    (howned.owner "d").trans hd, howned.loaded "a" "rival" ha⟩

end QuantumCompiler
