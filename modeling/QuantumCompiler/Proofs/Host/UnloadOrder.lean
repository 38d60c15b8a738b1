import QuantumCompiler.Proofs.Host.Default

/-!
# The order of unloading

The stop routine of a plugin may register over entries of another plugin, or over
entries that no plugin made, and one of its registrations may be the default for a
while. So two calls that unload different plugins touch the same names. Still, what a
number of such calls leaves depends on the set of the plugins only: an entry survives if
none of them recorded it and none of their stop routines registers its name.

`Cleared` says this without an order. It is shown for one call and carried over to any
list of calls; a sound host is determined by it, so lists with the same members lead to
the same host.

* `Cleared.trans`     — calls one after the other;
* `Sound.cleared`     — what a list of calls leaves;
* `Cleared.eq`        — nothing else is left open;
* `unload_in_any_order` — all orders of unloading everything end in one state.
-/

namespace QuantumCompiler

/-- Unloading the plugin takes this entry away. -/
def LoadedPlugin.Withdraws (l : LoadedPlugin) (n : String) (c : Handle) : Prop :=
  l.recorded.Records n c ∨ n ∈ l.plugin.stop.registrations.names

namespace Host

-- ---------------------------------------------------------------------------
-- What a list of calls leaves
-- ---------------------------------------------------------------------------

/-- The state after the plugins with these names were unloaded from `h`, in whatever
order. Names that are not loaded do not matter. -/
structure Cleared (h : Host) (names : List String) (after : Host) : Prop where
  plugins : ∀ q, after.plugins.get? q = if q ∈ names then none else h.plugins.get? q
  bindings : ∀ n c, after.registry.compilers.get? n = some c ↔
    h.registry.compilers.get? n = some c ∧
      ∀ q ∈ names, ∀ l, h.plugins.get? q = some l → ¬ l.Withdraws n c
  default : after.registry.defaultName = h.registry.defaultName.filter after.registry.contains

theorem Cleared.shrinks {h after : Host} {names : List String} (hc : h.Cleared names after) :
    h.registry.Shrinks after.registry :=
  ⟨fun n c hn => ((hc.bindings n c).mp hn).1, hc.default⟩

theorem Sound.cleared_nil {h : Host} (hs : h.Sound) : h.Cleared [] h where
  plugins q := by simp
  bindings n c := by simp
  default := hs.registry.shrinks_self.default

theorem Unloaded.bindings {h after : Host} {name : String} {l : LoadedPlugin}
    (hu : h.Unloaded name l after) (n : String) (c : Handle) :
    after.registry.compilers.get? n = some c ↔
      h.registry.compilers.get? n = some c ∧ ¬ l.Withdraws n c := by
  constructor
  · intro hn
    have hleft : ¬ h.Takes l n := by
      intro htaken
      rw [hu.taken n htaken] at hn
      cases hn
    rw [hu.left n hleft] at hn
    refine ⟨hn, ?_⟩
    rintro (hrecorded | hstop)
    · exact hleft (Or.inr ⟨c, hn, hrecorded⟩)
    · exact hleft (Or.inl hstop)
  · rintro ⟨hn, hkept⟩
    have hleft : ¬ h.Takes l n := by
      rintro (hstop | ⟨c', hc', hrecorded⟩)
      · exact hkept (Or.inr hstop)
      · rw [hn] at hc'
        exact hkept (Or.inl (Option.some.inj hc' ▸ hrecorded))
    rw [hu.left n hleft, hn]

/-- One call. -/
theorem Sound.cleared_unload {h : Host} (hs : h.Sound) (name : String) :
    h.Cleared [name] (h.unload name).1 := by
  cases hl : h.plugins.get? name with
  | none =>
    rw [unload_of_none hl]
    have hself := hs.cleared_nil
    refine ⟨?_, ?_, hself.default⟩
    · intro q
      by_cases hq : q = name
      · simp [hq, hl]
      · simp [hq]
    · intro n c
      simp [hl]
  | some l =>
    have hu := hs.unloaded hl
    refine ⟨?_, ?_, hu.default⟩
    · intro q
      simpa using hu.plugins q
    · intro n c
      rw [hu.bindings n c]
      simp [hl]

/-- A plugin that is unloaded twice is taken into account by the first call. -/
theorem Cleared.trans {h h' h'' : Host} {names names' : List String}
    (hc : h.Cleared names h') (hc' : h'.Cleared names' h'') :
    h.Cleared (names ++ names') h'' := by
  refine ⟨?_, ?_, (hc.shrinks.trans hc'.shrinks).default⟩
  · intro q
    rw [hc'.plugins, hc.plugins]
    by_cases hq : q ∈ names
    · simp [hq]
    · simp [hq]
  · intro n c
    rw [hc'.bindings, hc.bindings, and_assoc]
    apply and_congr_right
    intro _
    constructor
    · rintro ⟨hfirst, hrest⟩ q hq l hl
      by_cases hbefore : q ∈ names
      · exact hfirst q hbefore l hl
      · have hq' : q ∈ names' := (List.mem_append.mp hq).resolve_left hbefore
        exact hrest q hq' l (by rw [hc.plugins, if_neg hbefore, hl])
    · intro hall
      refine ⟨fun q hq => hall q (List.mem_append_left names' hq), ?_⟩
      intro q hq l hl
      rw [hc.plugins] at hl
      split at hl
      · cases hl
      · exact hall q (List.mem_append_right names hq) l hl

/-- A list of calls, by induction on the list. -/
theorem Sound.cleared {h : Host} (hs : h.Sound) (names : List String) :
    h.Cleared names (h.unloadEach names) := by
  induction names generalizing h with
  | nil => exact hs.cleared_nil
  | cons name names ih => exact (hs.cleared_unload name).trans (ih (hs.unload name))

-- ---------------------------------------------------------------------------
-- Lists with the same members
-- ---------------------------------------------------------------------------

theorem Cleared.eq {h after after' : Host} {names names' : List String}
    (hc : h.Cleared names after) (hc' : h.Cleared names' after') (hs : after.Sound)
    (hs' : after'.Sound) (hmem : ∀ q, q ∈ names ↔ q ∈ names') : after = after' := by
  have hplugins : after.plugins = after'.plugins := by
    apply hs.sorted.ext hs'.sorted
    intro q
    rw [hc.plugins, hc'.plugins]
    simp only [hmem]
  have hcompilers : after.registry.compilers = after'.registry.compilers := by
    apply hs.registry.sorted.ext hs'.registry.sorted
    intro n
    apply Option.ext
    intro c
    rw [hc.bindings, hc'.bindings]
    simp only [hmem]
  -- the defaults come from the same one, and the same names are bound
  have hdefault : after.registry.defaultName = after'.registry.defaultName := by
    rw [hc.default, hc'.default]
    unfold CompilerRegistry.contains
    rw [hcompilers]
  obtain ⟨⟨compilers, defaultName⟩, plugins⟩ := after
  obtain ⟨⟨compilers', defaultName'⟩, plugins'⟩ := after'
  dsimp only at hplugins hcompilers hdefault
  rw [hplugins, hcompilers, hdefault]

theorem Sound.mem_loaded_iff {h : Host} (hs : h.Sound) {q : String} :
    q ∈ h.loaded ↔ ∃ l, h.plugins.get? q = some l := by
  rw [← Table.contains_iff]
  exact hs.sorted.mem_names_iff

/-- Once all plugins are unloaded, none is. -/
theorem Sound.loaded_unloadAll {h : Host} (hs : h.Sound) : h.unloadAll.loaded = [] := by
  have hc := hs.cleared h.loaded
  rw [List.eq_nil_iff_forall_not_mem]
  intro q hq
  obtain ⟨l, hl⟩ := (hs.unloadEach h.loaded).mem_loaded_iff.mp hq
  rw [hc.plugins] at hl
  split at hl
  · cases hl
  · rename_i hnot
    exact hnot (hs.mem_loaded_iff.mpr ⟨l, hl⟩)

/-- **Unloading does not depend on the order.** From every state that a run reaches, any
two orders of unloading all plugins end in the same host, and it is the one that unloading
them by name ends in. No plugin is loaded there. An entry is bound there if it was bound
before, no plugin had recorded it and no stop routine registers its name. The default is
the one from before as far as its entry is still there. -/
theorem unload_in_any_order {h : Host} (hr : h.Reachable) {first second : List String}
    (hfirst : first.Perm h.loaded) (hsecond : second.Perm h.loaded) :
    h.unloadEach first = h.unloadEach second ∧ h.unloadEach first = h.unloadAll ∧
    h.unloadAll.loaded = [] ∧
    (∀ n c, h.unloadAll.registry.compilers.get? n = some c ↔
      h.registry.compilers.get? n = some c ∧
        ∀ q l, h.plugins.get? q = some l →
          ¬ l.recorded.Records n c ∧ n ∉ l.plugin.stop.registrations.names) ∧
    h.unloadAll.registry.defaultName =
      h.registry.defaultName.filter h.unloadAll.registry.contains := by
  have hs := hr.sound
  have hall : ∀ {order : List String}, order.Perm h.loaded → h.unloadEach order = h.unloadAll :=
    fun horder => (hs.cleared _).eq (hs.cleared h.loaded) (hs.unloadEach _) (hs.unloadEach _)
      fun _ => horder.mem_iff
  have hc := hs.cleared h.loaded
  refine ⟨(hall hfirst).trans (hall hsecond).symm, hall hfirst, hs.loaded_unloadAll, ?_, hc.default⟩
  intro n c
  show (h.unloadEach h.loaded).registry.compilers.get? n = some c ↔ _
  rw [hc.bindings]
  apply and_congr_right
  intro _
  constructor
  · intro hkept q l hl
    have hq : q ∈ h.loaded := hs.mem_loaded_iff.mpr ⟨l, hl⟩
    exact not_or.mp (hkept q hq l hl)
  · intro hkept q _ l hl
    exact not_or.mpr (hkept q l hl)

/-- A plugin that registers over the other's entry when it is stopped, and over an entry
that was made by hand. -/
def intrusivePlugin : Plugin :=
  { name := "intruder"
    start := { registrations := [("a", sampleHandle 1)] }
    stop :=
      { registrations := [("b", sampleHandle 2), ("manual", sampleHandle 3)]
        outcome := .error (.plugin "intruder" "busy") } }

/-- That plugin and the one it registers over. The default is an entry that is kept. -/
def contestedHost : Host :=
  empty.run [.registerAs "kept" (sampleHandle 4), .registerAs "manual" (sampleHandle 5),
    .load intrusivePlugin,
    .load { name := "vendor", start := { registrations := [("b", sampleHandle 6)] } }]

theorem unload_in_any_order_contested :
    contestedHost.Reachable ∧ ["vendor", "intruder"].Perm contestedHost.loaded ∧
      ["intruder", "vendor"].Perm contestedHost.loaded ∧
      contestedHost.unloadEach ["vendor", "intruder"] =
        contestedHost.unloadEach ["intruder", "vendor"] ∧
      contestedHost.unloadAll.registry.compilers.get? "kept" = some (sampleHandle 4) ∧
      contestedHost.unloadAll.registry.compilers.get? "manual" = none ∧
      contestedHost.unloadAll.registry.defaultName = some "kept" := by
  have hr : contestedHost.Reachable := ⟨_, rfl⟩
  have hvendor : ["vendor", "intruder"].Perm contestedHost.loaded := by decide
  have hintruder : ["intruder", "vendor"].Perm contestedHost.loaded := by decide
  obtain ⟨hsame, -, -, hbound, hdefault⟩ := unload_in_any_order hr hvendor hintruder
  have hkept : contestedHost.unloadAll.registry.compilers.get? "kept" = some (sampleHandle 4) := rfl
  refine ⟨hr, hvendor, hintruder, hsame, hkept, ?_, ?_⟩
  · rw [Option.eq_none_iff_forall_ne_some]
    intro c hc
    have hintrusive : contestedHost.plugins.get? "intruder" =
        some ⟨intrusivePlugin, intrusivePlugin.start.registrations⟩ := rfl
    exact absurd (by decide) ((((hbound "manual" c).mp hc).2 "intruder" _ hintrusive).2)
  · rw [hdefault]
    rfl

end Host

end QuantumCompiler
