import QuantumCompiler.Proofs.Host.Run

/-!
# A plugin that is unloaded

Unloading runs the stop routine, which may register more compilers, and then
withdraws two lists one after the other: what was recorded when the plugin started
and what the stop routine registered. The withdrawals act on each other's results,
but the outcome can be said name by name (`Unloaded`):

* a name that the stop routine registered is unbound, whatever it stood for before;
* a name that stood for a handle recorded under it is unbound;
* any other name stands for what it stood for.

How the stop routine ends has no influence on the state; it is the result of the
call. `get?_withdraw_append_registerAll_eq_some_iff` is the fact about registries
behind this, `Sound.unloaded` the state after a call, `unload_exact` the whole call.
-/

namespace QuantumCompiler

/-- The handle, told by its identity, was registered under the name. -/
def Registrations.Records (rs : Registrations) (name : String) (handle : Handle) : Prop :=
  ∃ recorded, (name, recorded) ∈ rs ∧ recorded.id = handle.id

theorem LoadedPlugin.owns_iff {l : LoadedPlugin} {name : String} {handle : Handle} :
    l.owns name handle = true ↔ l.recorded.Records name handle := by
  unfold LoadedPlugin.owns Registrations.Records
  rw [List.any_eq_true]
  constructor
  · rintro ⟨⟨n, c⟩, hmem, h⟩
    simp only [Bool.and_eq_true, decide_eq_true_eq] at h
    obtain ⟨rfl, hid⟩ := h
    exact ⟨c, hmem, hid⟩
  · rintro ⟨c, hmem, hid⟩
    exact ⟨(name, c), hmem, by simp [hid]⟩

-- ---------------------------------------------------------------------------
-- The registry
-- ---------------------------------------------------------------------------

namespace CompilerRegistry

/-- New registrations are made and then withdrawn along with older ones. What is bound
afterwards was bound before, and neither list accounts for it. -/
theorem get?_withdraw_append_registerAll_eq_some_iff (r : CompilerRegistry)
    (older newer : Registrations) (n : String) (current : Handle) :
    ((r.registerAll newer).withdraw (older ++ newer)).compilers.get? n = some current ↔
      r.compilers.get? n = some current ∧ n ∉ newer.names ∧ ¬ older.Records n current := by
  rw [get?_withdraw_eq_some_iff]
  by_cases hn : n ∈ newer.names
  · -- the last registration of the name is withdrawn by its own record
    obtain ⟨last, hmem, hlast⟩ := r.get?_registerAll_of_mem hn
    constructor
    · rintro ⟨hbound, hunrecorded⟩
      rw [hlast] at hbound
      obtain rfl := Option.some.inj hbound
      exact absurd rfl (hunrecorded last (List.mem_append_right older hmem))
    · rintro ⟨-, hnot, -⟩
      exact absurd hn hnot
  · rw [r.get?_registerAll_of_notMem hn]
    apply and_congr_right
    intro _
    constructor
    · intro hunrecorded
      refine ⟨hn, ?_⟩
      rintro ⟨recorded, hmem, hid⟩
      exact hunrecorded recorded (List.mem_append_left newer hmem) hid.symm
    · rintro ⟨-, hold⟩ handle hmem hid
      rcases List.mem_append.mp hmem with hmem | hmem
      · exact hold ⟨handle, hmem, hid.symm⟩
      · exact hn (Registrations.mem_names.mpr ⟨handle, hmem⟩)

/-- The default is kept as far as its name is. If there was none, the new
registrations set one, but it goes with its name. -/
theorem Sound.defaultName_withdraw_append_registerAll {r : CompilerRegistry} (h : r.Sound)
    (older newer : Registrations) :
    ((r.registerAll newer).withdraw (older ++ newer)).defaultName =
      r.defaultName.filter ((r.registerAll newer).withdraw (older ++ newer)).contains := by
  apply Option.ext
  intro d
  rw [(h.registerAll newer).defaultName_withdraw_eq_some_iff, defaultName_registerAll,
    Option.filter_eq_some_iff]
  apply and_congr_left
  intro hkept
  obtain ⟨current, hcurrent⟩ := Table.contains_iff.mp hkept
  have hnot : d ∉ newer.names :=
    ((r.get?_withdraw_append_registerAll_eq_some_iff older newer d current).mp hcurrent).2.1
  cases hdefault : r.defaultName with
  | some d' => rfl
  | none =>
    have hhead : newer.names.head? ≠ some d := fun hhead => hnot (List.mem_of_mem_head? hhead)
    simpa using hhead

end CompilerRegistry

-- ---------------------------------------------------------------------------
-- The host
-- ---------------------------------------------------------------------------

namespace Host

theorem unload_of_none {h : Host} {name : String} (hnone : h.plugins.get? name = none) :
    h.unload name = (h, .error (.pluginNotLoaded name)) := by
  unfold unload
  rw [hnone]

theorem unload_of_some {h : Host} {name : String} {l : LoadedPlugin}
    (hl : h.plugins.get? name = some l) :
    h.unload name =
      ({ registry := (h.registry.registerAll l.plugin.stop.registrations).withdraw
           (l.recorded ++ l.plugin.stop.registrations)
         plugins := h.plugins.erase name }, l.plugin.stop.outcome) := by
  unfold unload
  rw [hl]

/-- Unloading takes this name away: the stop routine registers it, or it stands for a
handle that was recorded under it. -/
def Takes (h : Host) (l : LoadedPlugin) (n : String) : Prop :=
  n ∈ l.plugin.stop.registrations.names ∨
    ∃ c, h.registry.compilers.get? n = some c ∧ l.recorded.Records n c

/-- The state after the plugin `l` is unloaded from `h`, where it had the name `name`. -/
structure Unloaded (h : Host) (name : String) (l : LoadedPlugin) (after : Host) : Prop where
  plugins : ∀ q, after.plugins.get? q = if q = name then none else h.plugins.get? q
  taken : ∀ n, h.Takes l n → after.registry.compilers.get? n = none
  left : ∀ n, ¬ h.Takes l n → after.registry.compilers.get? n = h.registry.compilers.get? n
  default : after.registry.defaultName = h.registry.defaultName.filter after.registry.contains

theorem Sound.unloaded {h : Host} (hs : h.Sound) {name : String} {l : LoadedPlugin}
    (hl : h.plugins.get? name = some l) : h.Unloaded name l (h.unload name).1 := by
  rw [unload_of_some hl]
  have hbound := h.registry.get?_withdraw_append_registerAll_eq_some_iff l.recorded
    l.plugin.stop.registrations
  refine ⟨h.plugins.get?_erase name, ?_, ?_,
    hs.registry.defaultName_withdraw_append_registerAll l.recorded l.plugin.stop.registrations⟩
  · intro n htaken
    rw [Option.eq_none_iff_forall_ne_some]
    intro c hc
    obtain ⟨hbefore, hstop, hold⟩ := (hbound n c).mp hc
    rcases htaken with hn | ⟨c', hc', hrecorded⟩
    · exact hstop hn
    · rw [hbefore] at hc'
      exact hold (Option.some.inj hc' ▸ hrecorded)
  · intro n hleft
    apply Option.ext
    intro c
    rw [hbound n c]
    constructor
    · exact And.left
    · intro hc
      exact ⟨hc, fun hn => hleft (Or.inl hn), fun hrecorded => hleft (Or.inr ⟨c, hc, hrecorded⟩)⟩

/-- **Unloading removes exactly the plugin's own entries**, in every reachable state and
whatever the stop routine registers and however it ends. The result is that of the stop
routine. A name that is not loaded is refused without a trace. -/
theorem unload_exact {h : Host} (hr : h.Reachable) (name : String) :
    (∀ l, h.plugins.get? name = some l →
      (h.unload name).2 = l.plugin.stop.outcome ∧ h.Unloaded name l (h.unload name).1) ∧
    (h.plugins.get? name = none → h.unload name = (h, .error (.pluginNotLoaded name))) := by
  refine ⟨?_, unload_of_none⟩
  intro l hl
  refine ⟨?_, hr.sound.unloaded hl⟩
  rw [unload_of_some hl]

-- ---------------------------------------------------------------------------
-- A sample
-- ---------------------------------------------------------------------------

/-- A handle of the gate-model back end with a given identity. -/
def sampleHandle (id : Nat) : Handle :=
  ⟨id, ({} : Qmi).compiler⟩

/-- A plugin that registers one name twice, and that registers another one and fails when
it is stopped. -/
def restlessPlugin : Plugin :=
  { name := "vendor"
    start :=
      { registrations :=
          [("a", sampleHandle 1), ("b", sampleHandle 2), ("a", sampleHandle 3)] }
    stop :=
      { registrations := [("c", sampleHandle 4)]
        outcome := .error (.plugin "vendor" "busy") } }

/-- That plugin in a host where its second name was registered again, and where the name
that it registers when it is stopped is taken. -/
def restlessHost : Host :=
  empty.run [.load restlessPlugin, .registerAs "b" (sampleHandle 5),
    .registerAs "c" (sampleHandle 6)]

/-- The name that was registered again stays. The others go, and with them the default. -/
theorem unload_exact_restless :
    restlessHost.Reachable ∧
      restlessHost.plugins.get? "vendor" =
        some ⟨restlessPlugin, restlessPlugin.start.registrations⟩ ∧
      restlessHost.registry.defaultName = some "a" ∧
      ∃ after, restlessHost.unload "vendor" = (after, .error (.plugin "vendor" "busy")) ∧
        after.plugins.get? "vendor" = none ∧
        after.registry.compilers.get? "a" = none ∧
        after.registry.compilers.get? "b" = some (sampleHandle 5) ∧
        after.registry.compilers.get? "c" = none ∧
        after.registry.defaultName = none := by
  have hr : restlessHost.Reachable := ⟨_, rfl⟩
  have hl : restlessHost.plugins.get? "vendor" =
      some ⟨restlessPlugin, restlessPlugin.start.registrations⟩ := rfl
  have hdefault : restlessHost.registry.defaultName = some "a" := by decide
  obtain ⟨hresult, hstate⟩ := (unload_exact hr "vendor").1 _ hl
  -- the last registration of the first name is the one in force
  have ha : (restlessHost.unload "vendor").1.registry.compilers.get? "a" = none :=
    hstate.taken "a" (Or.inr ⟨sampleHandle 3, rfl, sampleHandle 3, by simp [restlessPlugin], rfl⟩)
  refine ⟨hr, hl, hdefault, (restlessHost.unload "vendor").1, Prod.ext rfl hresult,
    hstate.plugins "vendor", ha, ?_, hstate.taken "c" (Or.inl (by decide)), ?_⟩
  · rw [hstate.left]
    · rfl
    · rintro (hstop | ⟨c, hc, recorded, hmem, hid⟩)
      · exact absurd hstop (by decide)
      · obtain rfl : sampleHandle 5 = c := Option.some.inj hc
        obtain rfl : recorded = sampleHandle 2 := by simpa [restlessPlugin] using hmem
        cases hid
  · have hgone : (restlessHost.unload "vendor").1.registry.contains "a" = false :=
      Table.contains_eq_false_iff.mpr ha
    rw [hstate.default, hdefault, Option.filter_some, if_neg (by simp [hgone])]

end Host

end QuantumCompiler
