import QuantumCompiler.CommandLine.Run
import QuantumCompiler.Proofs.Host.Default

/-!
# Starting up from settings

The validation of settings has a rule for the configured default: it must be the name of
an enabled back end. Starting up has no such rule. It loads the plugins of the enabled back
ends, each of which registers a compiler, lets the first registration be the default and
then asks the registry to make the configured name the default. Both come to the same.

What a start leaves behind is said for any list of plugins that register one compiler each
under different names (`Runs`). `Runs.load` adds one plugin to it and `Runs.loadEach` a
list; what is enabled is a special case.

* `Settings.validate_eq_ok_iff` — the rules of validation;
* `Runs.names_eq`, `Runs.ownerOf_eq` — what can be asked of a host that was started;
* `loadBuiltins_empty_eq_ok_iff` — when a start succeeds;
* `startedFrom_loadBuiltins_empty` — what it leaves behind;
* `startup_agrees` — validation and start agree.
-/

namespace QuantumCompiler

-- ---------------------------------------------------------------------------
-- Valid settings
-- ---------------------------------------------------------------------------

namespace Settings

/-- The names of the enabled back ends, in increasing order. -/
def enabledNames (s : Settings) : List String :=
  (if s.compilers.annealer.enabled then ["annealer"] else []) ++
    (if s.compilers.qmi.enabled then ["qmi"] else [])

/-- The same settings without a configured default. -/
def withoutDefault (s : Settings) : Settings :=
  { s with compilers := { s.compilers with defaultName := none } }

/-- The rules that settings have to keep. -/
structure Valid (s : Settings) : Prop where
  enabled : s.enabledNames ≠ []
  qmiQubits : s.compilers.qmi.enabled = true → s.compilers.qmi.numQubits ≠ 0
  annealerQubits : s.compilers.annealer.enabled = true → s.compilers.annealer.numQubits ≠ 0
  durations : ∀ f ∈ s.durations, isDuration f.2 = true
  infidelities : ∀ f ∈ s.infidelities, isProbability f.2 = true
  default : ∀ name, s.compilers.defaultName = some name → name ∈ s.enabledNames
  level : s.logging.level ∈ logLevels
  format : s.logging.format ∈ logFormats

theorem enabledNames_eq_nil_iff (s : Settings) :
    s.enabledNames = [] ↔
      s.compilers.qmi.enabled = false ∧ s.compilers.annealer.enabled = false := by
  unfold enabledNames
  cases s.compilers.annealer.enabled <;> cases s.compilers.qmi.enabled <;> simp

theorem isEnabled_iff (s : Settings) (name : String) :
    s.isEnabled name = true ↔ name ∈ s.enabledNames := by
  unfold isEnabled enabledNames Qmi.backendName Annealer.backendName
  cases s.compilers.annealer.enabled <;> cases s.compilers.qmi.enabled <;> simp [or_comm]

theorem find?_not_eq_none_iff {fields : List (String × Float)} {p : Float → Bool} :
    (fields.find? fun f => !p f.2) = none ↔ ∀ f ∈ fields, p f.2 = true := by
  simp

theorem filter_not_isEnabled_eq_none_iff (s : Settings) :
    (s.compilers.defaultName.filter fun n => !s.isEnabled n) = none ↔
      ∀ name, s.compilers.defaultName = some name → name ∈ s.enabledNames := by
  simp [Option.filter_eq_none_iff, isEnabled_iff]

/-- No rule is broken: the chain of tests falls through exactly if each of them does. -/
theorem complaint?_eq_none_iff (s : Settings) : s.complaint? = none ↔ s.Valid := by
  unfold complaint?
  dsimp only
  constructor
  · intro h
    iterate 8
      split at h
      · cases h
    rename_i hany hqmi hannealer _ hdurations _ hinfidelities _ hdefault hlevel hformat
    have hdurations := find?_not_eq_none_iff.mp (Option.eq_none_iff_forall_ne_some.mpr
      fun f hf => hdurations f.1 f.2 hf)
    have hinfidelities := find?_not_eq_none_iff.mp (Option.eq_none_iff_forall_ne_some.mpr
      fun f hf => hinfidelities f.1 f.2 hf)
    have hdefault := s.filter_not_isEnabled_eq_none_iff.mp
      (Option.eq_none_iff_forall_ne_some.mpr hdefault)
    refine ⟨?_, by simpa using hqmi, by simpa using hannealer, hdurations, hinfidelities, hdefault,
      by simpa using hlevel, by simpa using hformat⟩
    rw [Ne, enabledNames_eq_nil_iff]
    simpa using hany
  · intro hv
    have hany := hv.enabled
    rw [Ne, enabledNames_eq_nil_iff] at hany
    rw [find?_not_eq_none_iff.mpr hv.durations, find?_not_eq_none_iff.mpr hv.infidelities,
      s.filter_not_isEnabled_eq_none_iff.mpr hv.default]
    rw [if_neg (by simpa using hany), if_neg (by simpa using hv.qmiQubits),
      if_neg (by simpa using hv.annealerQubits)]
    dsimp only
    rw [if_neg (by simpa using hv.level), if_neg (by simpa using hv.format)]

theorem validate_eq_ok_iff (s : Settings) : s.validate = .ok () ↔ s.Valid := by
  rw [← complaint?_eq_none_iff]
  unfold validate
  cases s.complaint? with
  | none => simp
  | some message => simp

/-- The rule for the default is the only one that looks at it. -/
theorem valid_iff_withoutDefault (s : Settings) :
    s.Valid ↔ s.withoutDefault.Valid ∧
      ∀ name, s.compilers.defaultName = some name → name ∈ s.enabledNames := by
  constructor
  · intro hv
    exact ⟨⟨hv.enabled, hv.qmiQubits, hv.annealerQubits, hv.durations, hv.infidelities,
      fun name hname => (by cases hname), hv.level, hv.format⟩, hv.default⟩
  · rintro ⟨hv, hdefault⟩
    exact ⟨hv.enabled, hv.qmiQubits, hv.annealerQubits, hv.durations, hv.infidelities, hdefault,
      hv.level, hv.format⟩

end Settings

-- ---------------------------------------------------------------------------
-- Plugins with one compiler each
-- ---------------------------------------------------------------------------

namespace Host

/-- The name under which a handle registers itself. -/
def ownName (handle : Handle) : String :=
  handle.compiler.name

theorem loadEach_cons_of_ok {h : Host} {p : Plugin} (hp : (h.load p).2 = .ok ())
    (ps : List Plugin) :
    h.loadEach (p :: ps) = (h.load p).1.loadEach ps := by
  rw [loadEach]
  split
  · rename_i after hafter
    rw [hafter]
  · rename_i after fault hafter
    rw [hafter] at hp
    cases hp

/-- The host runs one plugin for each of these handles and nothing else. The first of them
is the default. -/
structure Runs (h : Host) (handles : List Handle) : Prop where
  sound : h.Sound
  bindings : ∀ n, h.registry.compilers.get? n = handles.find? fun c => ownName c = n
  plugins : ∀ n, h.plugins.get? n =
    (handles.find? fun c => ownName c = n).map fun c => ⟨.single c, [(ownName c, c)]⟩
  default : h.registry.defaultName = handles.head?.map ownName

theorem runs_empty : empty.Runs [] :=
  ⟨Sound.empty, fun _ => rfl, fun _ => rfl, rfl⟩

namespace Runs

variable {h : Host} {handles : List Handle}

theorem find?_eq_none_iff {n : String} :
    (handles.find? fun c => ownName c = n) = none ↔ n ∉ handles.map ownName := by
  simp

theorem contains_iff (hr : h.Runs handles) {n : String} :
    h.registry.contains n = true ↔ n ∈ handles.map ownName := by
  rw [CompilerRegistry.contains, Table.contains, hr.bindings, Option.isSome_iff_ne_none, Ne,
    find?_eq_none_iff, not_not]

theorem contains_plugin_iff (hr : h.Runs handles) {n : String} :
    h.plugins.contains n = true ↔ n ∈ handles.map ownName := by
  rw [Table.contains, hr.plugins, Option.isSome_map, Option.isSome_iff_ne_none, Ne,
    find?_eq_none_iff, not_not]

theorem ownName_of_find? {n : String} {c : Handle}
    (h : (handles.find? fun c => ownName c = n) = some c) : ownName c = n := by
  simpa using List.find?_some h

/-- One more plugin, with a new name. -/
theorem load (hr : h.Runs handles) {handle : Handle} (hnew : ownName handle ∉ handles.map ownName) :
    (h.load (.single handle)).2 = .ok () ∧
      (h.load (.single handle)).1.Runs (handles ++ [handle]) := by
  have hsound := hr.sound.load (.single handle)
  have hfind : ∀ n, (handles ++ [handle]).find? (fun c => ownName c = n) =
      if n = ownName handle then some handle else handles.find? fun c => ownName c = n := by
    intro n
    rw [List.find?_append, List.find?_singleton]
    by_cases hn : n = ownName handle
    · subst hn
      rw [find?_eq_none_iff.mpr hnew]
      simp
    · simp [hn, Ne.symm hn]
  rcases h.load_cases (.single handle) with ⟨hloaded, -⟩ | ⟨fault, -, hstart, -⟩ | ⟨-, -, hload⟩
  · exact absurd (hr.contains_plugin_iff.mp hloaded) hnew
  · cases hstart
  · rw [hload] at hsound ⊢
    refine ⟨rfl, hsound, ?_, ?_, ?_⟩
    · intro n
      show (h.registry.registerAs (ownName handle) handle).compilers.get? n = _
      rw [hfind, CompilerRegistry.get?_registerAs, hr.bindings]
    · intro n
      show (h.plugins.insert (ownName handle) _).get? n = _
      rw [hfind, Table.get?_insert, hr.plugins]
      split <;> rfl
    · show (h.registry.defaultName <|> some (ownName handle)) = _
      rw [hr.default]
      cases handles <;> rfl

theorem loadEach (hr : h.Runs handles) {more : List Handle}
    (hnames : ((handles ++ more).map ownName).Nodup) :
    (h.loadEach (more.map .single)).2 = .ok () ∧
      (h.loadEach (more.map .single)).1.Runs (handles ++ more) := by
  induction more generalizing h handles with
  | nil =>
    rw [List.append_nil]
    exact ⟨rfl, hr⟩
  | cons handle more ih =>
    have hsplit : handles ++ handle :: more = handles ++ [handle] ++ more := by simp
    have hnew : ownName handle ∉ handles.map ownName := by
      intro hmem
      rw [List.map_append, List.map_cons] at hnames
      exact (List.nodup_append.mp hnames).2.2 _ hmem _ List.mem_cons_self rfl
    obtain ⟨hok, hload⟩ := hr.load hnew
    rw [List.map_cons, loadEach_cons_of_ok hok, hsplit]
    rw [hsplit] at hnames
    exact ih hload hnames

/-- The compilers and the plugins have the same names, those of the handles. -/
theorem names_eq (hr : h.Runs handles) {names : List String} (hsorted : names.Pairwise (· < ·))
    (hmem : ∀ n, n ∈ names ↔ n ∈ handles.map ownName) :
    h.registry.names = names ∧ h.loaded = names := by
  have hregistry : ∀ n, n ∈ h.registry.compilers.names ↔ n ∈ names := by
    intro n
    rw [hr.sound.registry.sorted.mem_names_iff, hmem]
    exact hr.contains_iff
  have hplugins : ∀ n, n ∈ h.plugins.names ↔ n ∈ names := by
    intro n
    rw [hr.sound.sorted.mem_names_iff, hmem]
    exact hr.contains_plugin_iff
  exact ⟨(List.pairwise_map.mpr hr.sound.registry.sorted).eq_of_mem_iff hsorted hregistry,
    (List.pairwise_map.mpr hr.sound.sorted).eq_of_mem_iff hsorted hplugins⟩

/-- A compiler belongs to the plugin of its name: no other plugin recorded that name. -/
theorem ownerOf_eq (hr : h.Runs handles) {n : String} (hn : n ∈ handles.map ownName) :
    h.ownerOf n = some n := by
  obtain ⟨current, hcurrent⟩ := Table.contains_iff.mp (hr.contains_iff.mpr hn)
  have hfind : (handles.find? fun c => ownName c = n) = some current := by
    rw [← hr.bindings, hcurrent]
  have hname := ownName_of_find? hfind
  have hplugin : h.plugins.get? n = some ⟨.single current, [(n, current)]⟩ := by
    rw [hr.plugins, hfind, Option.map_some, hname]
  unfold Host.ownerOf
  rw [hcurrent]
  dsimp only
  cases hsearch : h.plugins.entries.find? fun e => e.2.owns n current with
  | none =>
    have hmem := hr.sound.sorted.mem_entries_iff.mpr hplugin
    exact absurd (by simp [LoadedPlugin.owns]) (List.find?_eq_none.mp hsearch _ hmem)
  | some found =>
    obtain ⟨q, l⟩ := found
    have howns : l.owns n current = true := by simpa using List.find?_some hsearch
    have hl := hr.sound.sorted.mem_entries_iff.mp (List.mem_of_find?_eq_some hsearch)
    rw [hr.plugins] at hl
    obtain ⟨c, hc, rfl⟩ := Option.map_eq_some_iff.mp hl
    have hq := ownName_of_find? hc
    have hrecorded : ownName c = n := by
      simp only [LoadedPlugin.owns, List.any_cons, List.any_nil, Bool.or_false, Bool.and_eq_true,
        decide_eq_true_eq] at howns
      exact howns.1
    rw [Option.map_some, ← hq, hrecorded]

end Runs

-- ---------------------------------------------------------------------------
-- The enabled back ends
-- ---------------------------------------------------------------------------

/-- The handles of the enabled back ends, in the order in which they are loaded. -/
def enabledHandles (id : Nat) (s : Settings) : List Handle :=
  (if s.compilers.qmi.enabled then [⟨id, (Qmi.mk s.compilers.qmi.toQmiTarget s.limits).compiler⟩]
    else []) ++
    (if s.compilers.annealer.enabled then
      [⟨id + 1, (Annealer.mk s.compilers.annealer.toAnnealerTarget s.limits).compiler⟩] else [])

theorem enabledPlugins_eq (id : Nat) (s : Settings) :
    enabledPlugins id s = (enabledHandles id s).map .single := by
  unfold enabledPlugins enabledHandles
  cases s.compilers.qmi.enabled <;> cases s.compilers.annealer.enabled <;> rfl

theorem map_ownName_enabledHandles (id : Nat) (s : Settings) :
    (enabledHandles id s).map ownName =
      (if s.compilers.qmi.enabled then ["qmi"] else []) ++
        (if s.compilers.annealer.enabled then ["annealer"] else []) := by
  unfold enabledHandles
  cases s.compilers.qmi.enabled <;> cases s.compilers.annealer.enabled <;> rfl

theorem mem_enabledNames_iff (id : Nat) (s : Settings) (n : String) :
    n ∈ s.enabledNames ↔ n ∈ (enabledHandles id s).map ownName := by
  rw [map_ownName_enabledHandles, Settings.enabledNames, List.mem_append, List.mem_append, or_comm]

theorem pairwise_enabledNames (s : Settings) : s.enabledNames.Pairwise (· < ·) := by
  unfold Settings.enabledNames
  cases s.compilers.qmi.enabled <;> cases s.compilers.annealer.enabled <;> decide

/-- Into the empty host, all enabled plugins are loaded. -/
theorem runs_enabledPlugins (id : Nat) (s : Settings) :
    (empty.loadEach (enabledPlugins id s)).2 = .ok () ∧
      (empty.loadEach (enabledPlugins id s)).1.Runs (enabledHandles id s) := by
  rw [enabledPlugins_eq]
  apply runs_empty.loadEach
  rw [List.nil_append, map_ownName_enabledHandles]
  cases s.compilers.qmi.enabled <;> cases s.compilers.annealer.enabled <;> decide

/-- A sound host that runs no plugin and has no compilers is the empty one. -/
theorem Sound.eq_empty {h : Host} (hs : h.Sound) (hloaded : h.loaded = [])
    (hnames : h.registry.names = []) : h = Host.empty := by
  obtain ⟨⟨⟨compilers⟩, default⟩, ⟨plugins⟩⟩ := h
  obtain rfl : plugins = [] := List.map_eq_nil_iff.mp hloaded
  obtain rfl : compilers = [] := List.map_eq_nil_iff.mp hnames
  cases default with
  | none => rfl
  | some d => exact absurd (hs.registry.bound d rfl) Bool.false_ne_true

-- ---------------------------------------------------------------------------
-- The start
-- ---------------------------------------------------------------------------

/-- What can be asked of a host that was started from settings. -/
structure StartedFrom (h : Host) (s : Settings) : Prop where
  nonempty : s.enabledNames ≠ []
  names : h.registry.names = s.enabledNames
  loaded : h.loaded = s.enabledNames
  owner : ∀ n ∈ s.enabledNames, h.ownerOf n = some n
  default : h.registry.defaultName = some (s.compilers.defaultName.getD
    (if s.compilers.qmi.enabled then "qmi" else "annealer"))
  usable : ∃ handle, h.registry.getOrDefault none = .ok handle ∧
    h.registry.defaultName = some (ownName handle)

section Start

variable (id : Nat) {s : Settings}

/-- The name that becomes the default if none is configured: the first that is loaded. -/
theorem head?_enabledHandles (hne : s.enabledNames ≠ []) :
    (enabledHandles id s).head?.map ownName =
      some (if s.compilers.qmi.enabled then "qmi" else "annealer") := by
  rw [← List.head?_map, map_ownName_enabledHandles]
  rw [Ne, Settings.enabledNames_eq_nil_iff] at hne
  cases hqmi : s.compilers.qmi.enabled with
  | true => rfl
  | false =>
    cases hannealer : s.compilers.annealer.enabled with
    | true => rfl
    | false => exact absurd ⟨hqmi, hannealer⟩ hne

theorem loadBuiltins_empty_of_none (hnone : s.compilers.defaultName = none) :
    Host.empty.loadBuiltins id s = ((Host.empty.loadEach (enabledPlugins id s)).1, .ok ()) := by
  rw [loadBuiltins_of_ok (runs_enabledPlugins id s).1, hnone]

theorem loadBuiltins_empty_of_mem {name : String} (hname : s.compilers.defaultName = some name)
    (hmem : name ∈ s.enabledNames) :
    Host.empty.loadBuiltins id s =
      ((Host.empty.loadEach (enabledPlugins id s)).1.setDefault name, .ok ()) := by
  obtain ⟨hok, hruns⟩ := runs_enabledPlugins id s
  have hbound := hruns.contains_iff.mpr ((mem_enabledNames_iff id s name).mp hmem)
  rw [loadBuiltins_of_ok hok, hname]
  dsimp only
  rw [CompilerRegistry.setDefault_of_contains hbound]
  rfl

theorem loadBuiltins_empty_of_notMem {name : String} (hname : s.compilers.defaultName = some name)
    (hmem : name ∉ s.enabledNames) :
    (Host.empty.loadBuiltins id s).2 = .error (.unknownCompiler name) := by
  obtain ⟨hok, hruns⟩ := runs_enabledPlugins id s
  have hunbound : (Host.empty.loadEach (enabledPlugins id s)).1.registry.contains name = false := by
    rw [← Bool.not_eq_true, hruns.contains_iff, ← mem_enabledNames_iff]
    exact hmem
  rw [loadBuiltins_of_ok hok, hname]
  dsimp only
  rw [CompilerRegistry.setDefault_of_not_contains hunbound]
  rfl

/-- The start succeeds exactly by the rule for the default. -/
theorem loadBuiltins_empty_eq_ok_iff :
    (Host.empty.loadBuiltins id s).2 = .ok () ↔
      ∀ name, s.compilers.defaultName = some name → name ∈ s.enabledNames := by
  cases hdefault : s.compilers.defaultName with
  | none => simp [loadBuiltins_empty_of_none id hdefault]
  | some name =>
    by_cases hmem : name ∈ s.enabledNames
    · simp [loadBuiltins_empty_of_mem id hdefault hmem, hmem]
    · simp [loadBuiltins_empty_of_notMem id hdefault hmem, hmem]

/-- With the plugins of the enabled back ends and one of their names as the default. -/
theorem Runs.startedFrom {id : Nat} {started h : Host} (hr : started.Runs (enabledHandles id s))
    (hcompilers : h.registry.compilers = started.registry.compilers)
    (hplugins : h.plugins = started.plugins) (hne : s.enabledNames ≠ [])
    (hdefault : h.registry.defaultName = some (s.compilers.defaultName.getD
      (if s.compilers.qmi.enabled then "qmi" else "annealer")))
    (hbound : ∀ d, h.registry.defaultName = some d → d ∈ s.enabledNames) : h.StartedFrom s := by
  obtain ⟨hnames, hloaded⟩ := hr.names_eq (pairwise_enabledNames s) (mem_enabledNames_iff id s)
  refine ⟨hne, ?_, ?_, ?_, hdefault, ?_⟩
  · rw [← hnames, CompilerRegistry.names, hcompilers, CompilerRegistry.names]
  · rw [← hloaded, Host.loaded, hplugins, Host.loaded]
  · intro n hn
    rw [ownerOf_congr hplugins (by rw [hcompilers])]
    exact hr.ownerOf_eq ((mem_enabledNames_iff id s n).mp hn)
  · have hmem := (mem_enabledNames_iff id s _).mp (hbound _ hdefault)
    obtain ⟨handle, hhandle⟩ := Table.contains_iff.mp (hr.contains_iff.mpr hmem)
    refine ⟨handle, ?_, ?_⟩
    · rw [CompilerRegistry.getOrDefault, CompilerRegistry.getDefault, hdefault]
      dsimp only
      rw [CompilerRegistry.get, hcompilers, hhandle]
    · rw [hr.bindings] at hhandle
      rw [hdefault, ownName_of_find? hhandle]

theorem startedFrom_loadBuiltins_empty (hv : s.Valid) :
    (Host.empty.loadBuiltins id s).1.StartedFrom s := by
  obtain ⟨-, hruns⟩ := runs_enabledPlugins id s
  cases hname : s.compilers.defaultName with
  | none =>
    -- the first registration is the default
    have hdefault : (Host.empty.loadEach (enabledPlugins id s)).1.registry.defaultName =
        some (if s.compilers.qmi.enabled then "qmi" else "annealer") := by
      rw [hruns.default, head?_enabledHandles id hv.enabled]
    rw [loadBuiltins_empty_of_none id hname]
    apply hruns.startedFrom rfl rfl hv.enabled
    · rw [hname]
      exact hdefault
    · intro d hd
      rw [mem_enabledNames_iff id, ← hruns.contains_iff]
      exact hruns.sound.registry.bound d hd
  | some name =>
    have hmem := hv.default name hname
    have hbound := hruns.contains_iff.mpr ((mem_enabledNames_iff id s name).mp hmem)
    rw [loadBuiltins_empty_of_mem id hname hmem, setDefault_of_contains hbound]
    refine hruns.startedFrom ?_ ?_ hv.enabled ?_ ?_
    · rfl
    · rfl
    · rw [hname]
      rfl
    · intro d hd
      rwa [← Option.some.inj hd]

/-- A host that was started has a compiler, so the start of a run accepts it. -/
theorem startHost_of_startedFrom (hok : (Host.empty.loadBuiltins 0 s).2 = .ok ())
    (hstarted : (Host.empty.loadBuiltins 0 s).1.StartedFrom s) :
    CommandLine.startHost s = .ok (Host.empty.loadBuiltins 0 s).1 := by
  have hload : Host.empty.loadBuiltins 0 s = ((Host.empty.loadBuiltins 0 s).1, .ok ()) :=
    Prod.ext rfl hok
  have hsize : (Host.empty.loadBuiltins 0 s).1.registry.size ≠ 0 := by
    have hlength := congrArg List.length hstarted.names
    have hpos := List.length_pos_iff.mpr hstarted.nonempty
    rw [CompilerRegistry.names, Table.names, List.length_map] at hlength
    show (Host.empty.loadBuiltins 0 s).1.registry.compilers.entries.length ≠ 0
    omega
  unfold CommandLine.startHost
  rw [hload]
  exact if_neg hsize

end Start

/-- **Validation and start agree.** On a host that runs no plugins over a registry without
compilers, loading the back ends that settings enable succeeds exactly if the configured
default, if there is one, is the name of an enabled back end; otherwise the fault is that
this name is unknown. This is the rule for the default that validation has: settings are
valid exactly if they are valid without their default and can be started from. From valid
settings the host is started with the enabled back ends, each of them registered and loaded
under its name and its own, and a default compiler is there; so the start of a run never
finds a registry without compilers. -/
theorem startup_agrees {h : Host} (hr : h.Reachable) (hloaded : h.loaded = [])
    (hnames : h.registry.names = []) (id : Nat) (s : Settings) :
    ((h.loadBuiltins id s).2 = .ok () ↔
      ∀ name, s.compilers.defaultName = some name → name ∈ s.enabledNames) ∧
    (∀ name, s.compilers.defaultName = some name → name ∉ s.enabledNames →
      (h.loadBuiltins id s).2 = .error (.unknownCompiler name)) ∧
    (s.validate = .ok () ↔
      s.withoutDefault.validate = .ok () ∧ (h.loadBuiltins id s).2 = .ok ()) ∧
    (s.validate = .ok () → (h.loadBuiltins id s).1.StartedFrom s ∧
      ∃ host, CommandLine.startHost s = .ok host ∧ host.StartedFrom s) := by
  obtain rfl := hr.sound.eq_empty hloaded hnames
  refine ⟨loadBuiltins_empty_eq_ok_iff id, fun name => loadBuiltins_empty_of_notMem id, ?_, ?_⟩
  · rw [Settings.validate_eq_ok_iff, Settings.validate_eq_ok_iff, loadBuiltins_empty_eq_ok_iff]
    exact s.valid_iff_withoutDefault
  · intro hvalid
    have hv := s.validate_eq_ok_iff.mp hvalid
    refine ⟨startedFrom_loadBuiltins_empty id hv, ?_⟩
    have hstarted := startedFrom_loadBuiltins_empty 0 hv
    have hok := (loadBuiltins_empty_eq_ok_iff 0).mpr hv.default
    exact ⟨_, startHost_of_startedFrom hok hstarted, hstarted⟩

/-- A host that was used and then emptied again. -/
def emptiedHost : Host :=
  Host.empty.run [.loadBuiltins 0 {}, .setDefault "annealer", .unloadAll]

/-- Without a configured default the annealer becomes it; the name of a back end that is not
enabled is refused by both sides. -/
theorem startup_agrees_annealer :
    emptiedHost.Reachable ∧ emptiedHost.loaded = [] ∧ emptiedHost.registry.names = [] ∧
      (annealerOnly none).validate = .ok () ∧
      (emptiedHost.loadBuiltins 2 (annealerOnly none)).1.registry.defaultName = some "annealer" ∧
      (annealerOnly (some "qmi")).validate ≠ .ok () ∧
      (emptiedHost.loadBuiltins 2 (annealerOnly (some "qmi"))).2 =
        .error (.unknownCompiler "qmi") := by
  have hr : emptiedHost.Reachable := ⟨_, rfl⟩
  have hloaded : emptiedHost.loaded = [] := by decide
  have hnames : emptiedHost.registry.names = [] := by decide
  have hvalid : (annealerOnly none).validate = .ok () := by decide
  obtain ⟨-, -, -, hstart⟩ := startup_agrees hr hloaded hnames 2 (annealerOnly none)
  obtain ⟨-, hunknown, hagrees, -⟩ := startup_agrees hr hloaded hnames 2 (annealerOnly (some "qmi"))
  have hfault := hunknown "qmi" rfl (by decide)
  refine ⟨hr, hloaded, hnames, hvalid, (hstart hvalid).1.default, ?_, hfault⟩
  intro hboth
  rw [hagrees, hfault] at hboth
  cases hboth.2

end Host

end QuantumCompiler
