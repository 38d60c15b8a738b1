import QuantumCompiler.Proofs.Host.Run

/-!
# A plugin that fails to start

A host that cannot start a plugin withdraws what the plugin registered. Withdrawing
is not restoring: a name that the plugin registered is unbound afterwards, also if
something else was registered under it before, and a default of that name goes with
it. All else is as it was (`RolledBack`), so a plugin that registers new names only
leaves no trace.

* `Sound.rolledBack` — the state after a failed start, name by name;
* `RolledBack.eq_of_fresh` — new names leave no trace;
* `load_failure` — both ways in which loading fails, in every reachable state.
-/

namespace QuantumCompiler

-- ---------------------------------------------------------------------------
-- The registry
-- ---------------------------------------------------------------------------

namespace CompilerRegistry

/-- Registrations that are made and withdrawn leave their names unbound and all other
names as they were. -/
theorem get?_withdraw_registerAll (r : CompilerRegistry) (rs : Registrations) (n : String) :
    ((r.registerAll rs).withdraw rs).compilers.get? n =
      if n ∈ rs.names then none else r.compilers.get? n := by
  by_cases hn : n ∈ rs.names
  · rw [if_pos hn, Option.eq_none_iff_forall_ne_some]
    intro current hcurrent
    -- what the name stands for was recorded by the last registration of the name
    obtain ⟨hbound, hunrecorded⟩ := (get?_withdraw_eq_some_iff _ rs n current).mp hcurrent
    obtain ⟨handle, hmem, hlast⟩ := get?_registerAll_of_mem r hn
    rw [hlast] at hbound
    obtain rfl := Option.some.inj hbound
    exact hunrecorded _ hmem rfl
  · rw [if_neg hn]
    apply Option.ext
    intro current
    rw [get?_withdraw_eq_some_iff, get?_registerAll_of_notMem r hn]
    constructor
    · exact And.left
    · intro hcurrent
      refine ⟨hcurrent, ?_⟩
      intro handle hmem
      exact absurd (Registrations.mem_names.mpr ⟨handle, hmem⟩) hn

/-- The default is kept unless it is one of the withdrawn names. -/
theorem Sound.defaultName_withdraw_registerAll {r : CompilerRegistry} (h : r.Sound)
    (rs : Registrations) (d : String) :
    ((r.registerAll rs).withdraw rs).defaultName = some d ↔
      r.defaultName = some d ∧ d ∉ rs.names := by
  rw [(h.registerAll rs).defaultName_withdraw_eq_some_iff, defaultName_registerAll, contains,
    Table.contains_iff]
  constructor
  · rintro ⟨hdefault, current, hcurrent⟩
    have hd : d ∉ rs.names := by
      intro hd
      rw [get?_withdraw_registerAll, if_pos hd] at hcurrent
      cases hcurrent
    refine ⟨?_, hd⟩
    cases hbefore : r.defaultName with
    | some d' => simpa [hbefore] using hdefault
    | none =>
      -- the first registration would be the default, but its name is withdrawn
      have hhead : rs.names.head? = some d := by simpa [hbefore] using hdefault
      exact absurd (List.mem_of_mem_head? hhead) hd
  · rintro ⟨hdefault, hd⟩
    refine ⟨by rw [hdefault]; rfl, ?_⟩
    rw [get?_withdraw_registerAll, if_neg hd]
    exact Table.contains_iff.mp (h.bound d hdefault)

end CompilerRegistry

-- ---------------------------------------------------------------------------
-- The host
-- ---------------------------------------------------------------------------

namespace Host

/-- The host after registrations that are made and withdrawn again. -/
def retract (h : Host) (rs : Registrations) : Host :=
  { h with registry := (h.registry.registerAll rs).withdraw rs }

/-- The state `after` differs from `h` in that the names of the registrations are
unbound, and in a default that was one of them. -/
structure RolledBack (h : Host) (rs : Registrations) (after : Host) : Prop where
  plugins : after.plugins = h.plugins
  bindings : ∀ n, after.registry.compilers.get? n =
    if n ∈ rs.names then none else h.registry.compilers.get? n
  default : ∀ d, after.registry.defaultName = some d ↔
    h.registry.defaultName = some d ∧ d ∉ rs.names
  owners : ∀ n, after.ownerOf n = if n ∈ rs.names then none else h.ownerOf n

theorem ownerOf_of_unbound {h : Host} {n : String} (hn : h.registry.compilers.get? n = none) :
    h.ownerOf n = none := by
  unfold ownerOf
  rw [hn]

/-- Whose a name is depends on the plugins and on the binding of that name. -/
theorem ownerOf_congr {h h' : Host} {n : String} (hplugins : h'.plugins = h.plugins)
    (hn : h'.registry.compilers.get? n = h.registry.compilers.get? n) :
    h'.ownerOf n = h.ownerOf n := by
  unfold ownerOf
  rw [hn, hplugins]

theorem load_of_contains {h : Host} {p : Plugin} (hp : h.plugins.contains p.name = true) :
    h.load p = (h, .error (.pluginAlreadyLoaded p.name)) :=
  if_pos hp

theorem load_of_error {h : Host} {p : Plugin} {fault : RegistryFault}
    (hp : h.plugins.contains p.name = false) (hstart : p.start.outcome = .error fault) :
    h.load p = (h.retract p.start.registrations, .error fault) := by
  unfold load
  rw [if_neg (by rw [hp]; exact Bool.false_ne_true), hstart]
  rfl

/-- What loading does: nothing, making registrations and withdrawing them, or making them
and recording them with the plugin. -/
theorem load_cases (h : Host) (p : Plugin) :
    (h.plugins.contains p.name = true ∧ h.load p = (h, .error (.pluginAlreadyLoaded p.name))) ∨
    (∃ fault, h.plugins.contains p.name = false ∧ p.start.outcome = .error fault ∧
      h.load p = (h.retract p.start.registrations, .error fault)) ∨
    (h.plugins.contains p.name = false ∧ p.start.outcome = .ok () ∧
      h.load p =
        ({ registry := h.registry.registerAll p.start.registrations
           plugins := h.plugins.insert p.name ⟨p, p.start.registrations⟩ }, .ok ())) := by
  cases hp : h.plugins.contains p.name with
  | true => exact Or.inl ⟨rfl, load_of_contains hp⟩
  | false =>
    cases hstart : p.start.outcome with
    | error fault => exact Or.inr (Or.inl ⟨fault, rfl, rfl, load_of_error hp hstart⟩)
    | ok _ =>
      refine Or.inr (Or.inr ⟨rfl, rfl, ?_⟩)
      unfold load
      rw [if_neg (by rw [hp]; exact Bool.false_ne_true), hstart]

/-- Withdrawing what was registered rolls a sound host back. -/
theorem Sound.rolledBack {h : Host} (hs : h.Sound) (rs : Registrations) :
    h.RolledBack rs (h.retract rs) := by
  have hbindings : ∀ n, (h.retract rs).registry.compilers.get? n =
      if n ∈ rs.names then none else h.registry.compilers.get? n :=
    h.registry.get?_withdraw_registerAll rs
  refine ⟨rfl, hbindings, hs.registry.defaultName_withdraw_registerAll rs, ?_⟩
  intro n
  by_cases hn : n ∈ rs.names
  · rw [if_pos hn]
    exact ownerOf_of_unbound (by rw [hbindings, if_pos hn])
  · rw [if_neg hn]
    exact ownerOf_congr rfl (by rw [hbindings, if_neg hn])

/-- Rolling back names that were not bound changes nothing. -/
theorem RolledBack.eq_of_fresh {h after : Host} {rs : Registrations} (hb : h.RolledBack rs after)
    (hs : h.Sound) (hs' : after.Sound) (hfresh : ∀ n ∈ rs.names, h.registry.contains n = false) :
    after = h := by
  have hcompilers : after.registry.compilers = h.registry.compilers := by
    apply hs'.registry.sorted.ext hs.registry.sorted
    intro n
    rw [hb.bindings]
    by_cases hn : n ∈ rs.names
    · rw [if_pos hn, Table.contains_eq_false_iff.mp (hfresh n hn)]
    · rw [if_neg hn]
  have hdefault : after.registry.defaultName = h.registry.defaultName := by
    apply Option.ext
    intro d
    rw [hb.default]
    constructor
    · exact And.left
    · intro hd
      refine ⟨hd, ?_⟩
      intro hn
      have hbound := hs.registry.bound d hd
      rw [hfresh d hn] at hbound
      cases hbound
  obtain ⟨⟨compilers, defaultName⟩, plugins⟩ := after
  obtain ⟨⟨compilers', defaultName'⟩, plugins'⟩ := h
  obtain rfl : plugins = plugins' := hb.plugins
  obtain rfl : compilers = compilers' := hcompilers
  obtain rfl : defaultName = defaultName' := hdefault
  rfl

theorem Sound.retract {h : Host} (hs : h.Sound) (rs : Registrations) : (h.retract rs).Sound :=
  ⟨(hs.registry.registerAll rs).withdraw rs, hs.sorted⟩

/-- Loading fails in every reachable state without a trace if the name of the plugin is
taken. If the plugin fails to start, the fault is its own and its registrations are
rolled back; then the state is the one before, unless it registered a bound name. -/
theorem load_failure {h : Host} (hr : h.Reachable) (p : Plugin) :
    (h.plugins.contains p.name = true →
      h.load p = (h, .error (.pluginAlreadyLoaded p.name))) ∧
    ∀ fault, h.plugins.contains p.name = false → p.start.outcome = .error fault →
      ∃ after, h.load p = (after, .error fault) ∧ h.RolledBack p.start.registrations after ∧
        ((∀ n ∈ p.start.registrations.names, h.registry.contains n = false) → after = h) := by
  refine ⟨load_of_contains, ?_⟩
  intro fault hp hstart
  have hs := hr.sound
  have hb := hs.rolledBack p.start.registrations
  refine ⟨_, load_of_error hp hstart, hb, ?_⟩
  intro hfresh
  exact hb.eq_of_fresh hs (hs.retract p.start.registrations) hfresh

-- ---------------------------------------------------------------------------
-- Samples
-- ---------------------------------------------------------------------------

/-- A host with one plugin, whose compiler is the default. -/
def sampleHost : Host :=
  empty.run [.load (.qmi 0 {} {})]

/-- A plugin that registers under some names, the first of them twice, and then fails. -/
def failingPlugin (first second : String) : Plugin :=
  { name := "failing"
    start :=
      { registrations :=
          [(first, ⟨1, ({} : Qmi).compiler⟩), (second, ⟨2, ({} : Qmi).compiler⟩),
            (first, ⟨3, ({} : Qmi).compiler⟩)]
        outcome := .error (.plugin "failing" "no device") } }

/-- New names leave no trace. -/
theorem load_failure_new_names :
    sampleHost.Reachable ∧
      sampleHost.load (failingPlugin "a" "b") =
        (sampleHost, .error (.plugin "failing" "no device")) ∧
      sampleHost.load (.qmi 4 {} {}) = (sampleHost, .error (.pluginAlreadyLoaded "qmi")) := by
  have hr : sampleHost.Reachable := ⟨_, rfl⟩
  obtain ⟨after, hload, -, hsame⟩ :=
    (load_failure hr (failingPlugin "a" "b")).2 _ (by decide) rfl
  rw [hsame (by decide)] at hload
  exact ⟨hr, hload, (load_failure hr (.qmi 4 {} {})).1 (by decide)⟩

/-- A failed load takes away a name that was bound before, and the default with it. -/
theorem load_failure_replaced_name :
    sampleHost.Reachable ∧ sampleHost.plugins.contains "failing" = false ∧
      sampleHost.registry.defaultName = some "qmi" ∧ sampleHost.ownerOf "qmi" = some "qmi" ∧
      (sampleHost.load (failingPlugin "qmi" "b")).2 = .error (.plugin "failing" "no device") ∧
      (sampleHost.load (failingPlugin "qmi" "b")).1.registry.contains "qmi" = false ∧
      (sampleHost.load (failingPlugin "qmi" "b")).1.registry.defaultName = none ∧
      (sampleHost.load (failingPlugin "qmi" "b")).1 ≠ sampleHost := by
  refine ⟨⟨_, rfl⟩, by decide, by decide, by decide, rfl, by decide, by decide, ?_⟩
  intro heq
  have hdefault : sampleHost.registry.defaultName = none := by
    rw [← heq]
    rfl
  cases hdefault

end Host

end QuantumCompiler
