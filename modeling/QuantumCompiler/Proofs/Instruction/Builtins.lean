import QuantumCompiler.Instruction.Registry
import QuantumCompiler.Proofs.Instruction
import QuantumCompiler.Proofs.Table

/-!
# Installing the built-in instructions

The fifteen kinds are registered one after the other, and the run ends at the first name that
the registry refuses. What was registered before stays, so the registry afterwards depends on
which names were bound at first, to whatever factories. `Installed r kinds r'` says what a run
that got through `kinds` has changed: their names stand for their factories, and all else is as
it was.

* `registerKinds_of_accepted` — a run in which no name is refused;
* `registerKinds_of_refused` — a run that stops;
* `createWithParams_builtins_eq_ok_iff` — the built-in registry goes by the names of the kinds;
* `registerKinds_all_outcome` — the built-in kinds, installed into any registry.
-/

namespace QuantumCompiler

theorem Kind.name_mem_map_iff {kind : Kind} {kinds : List Kind} :
    kind.name ∈ kinds.map Kind.name ↔ kind ∈ kinds :=
  List.mem_map_of_injective fun _ _ => Kind.name_injective

theorem Kind.mem_all (kind : Kind) : kind ∈ Kind.all := by
  cases kind <;> decide

theorem Kind.nodup_all : Kind.all.Nodup := by
  decide

namespace InstructionRegistry

-- ---------------------------------------------------------------------------
-- Single registrations
-- ---------------------------------------------------------------------------

/-- The registry refuses to bind this name. -/
def Refuses (r : InstructionRegistry) (name : String) : Prop :=
  r.policy = .strict ∧ r.contains name = true

instance (r : InstructionRegistry) (name : String) : Decidable (r.Refuses name) :=
  inferInstanceAs (Decidable (_ ∧ _))

theorem register_of_refused {r : InstructionRegistry} {name : String} (h : r.Refuses name)
    (factory : Factory) : r.register name factory = .error (.alreadyRegistered name) :=
  if_pos h

theorem register_of_accepted {r : InstructionRegistry} {name : String} (h : ¬ r.Refuses name)
    (factory : Factory) :
    r.register name factory = .ok { r with factories := r.factories.insert name factory } :=
  if_neg h

-- ---------------------------------------------------------------------------
-- What a run changes
-- ---------------------------------------------------------------------------

/-- The registry `r'` is `r` with the names of these kinds bound to their factories. -/
structure Installed (r : InstructionRegistry) (kinds : List Kind) (r' : InstructionRegistry) :
    Prop where
  policy : r'.policy = r.policy
  bound : ∀ kind ∈ kinds, r'.factories.get? kind.name = some kind.create
  kept : ∀ name, name ∉ kinds.map Kind.name → r'.factories.get? name = r.factories.get? name

theorem installed_nil (r : InstructionRegistry) : r.Installed [] r :=
  ⟨rfl, by simp, fun _ _ => rfl⟩

theorem installed_singleton (r : InstructionRegistry) (kind : Kind) :
    r.Installed [kind] { r with factories := r.factories.insert kind.name kind.create } := by
  refine ⟨rfl, ?_, ?_⟩
  · intro k hk
    rw [List.mem_singleton.mp hk, Table.get?_insert, if_pos rfl]
  · intro name hname
    rw [Table.get?_insert, if_neg (by simpa using hname)]

/-- Runs one after the other. A name of both belongs to a single kind, so it does not matter
which of them bound it last. -/
theorem Installed.append {r r' r'' : InstructionRegistry} {kinds kinds' : List Kind}
    (h : r.Installed kinds r') (h' : r'.Installed kinds' r'') :
    r.Installed (kinds ++ kinds') r'' := by
  refine ⟨h'.policy.trans h.policy, ?_, ?_⟩
  · intro kind hkind
    by_cases hlater : kind ∈ kinds'
    · exact h'.bound kind hlater
    · rw [h'.kept _ (mt Kind.name_mem_map_iff.mp hlater)]
      exact h.bound kind ((List.mem_append.mp hkind).resolve_right hlater)
  · intro name hname
    rw [List.map_append, List.mem_append, not_or] at hname
    rw [h'.kept name hname.2, h.kept name hname.1]

/-- A run does not change whether the name of another kind is refused. -/
theorem Installed.refuses_iff {r r' : InstructionRegistry} {kinds : List Kind}
    (h : r.Installed kinds r') {kind : Kind} (hkind : kind ∉ kinds) :
    r'.Refuses kind.name ↔ r.Refuses kind.name := by
  have hget := h.kept kind.name (mt Kind.name_mem_map_iff.mp hkind)
  unfold Refuses contains Table.contains
  rw [h.policy, hget]

-- ---------------------------------------------------------------------------
-- Runs
-- ---------------------------------------------------------------------------

theorem registerKinds_cons_of_refused {r : InstructionRegistry} {kind : Kind}
    (h : r.Refuses kind.name) (kinds : List Kind) :
    r.registerKinds (kind :: kinds) = (r, .error (.alreadyRegistered kind.name)) := by
  simp only [registerKinds, register_of_refused h]

theorem registerKinds_cons_of_accepted {r : InstructionRegistry} {kind : Kind}
    (h : ¬ r.Refuses kind.name) :
    ∃ next, r.Installed [kind] next ∧
      ∀ kinds, r.registerKinds (kind :: kinds) = next.registerKinds kinds := by
  refine ⟨_, r.installed_singleton kind, ?_⟩
  intro kinds
  simp only [registerKinds, register_of_accepted h]

/-- If no name is refused at first, none is refused later: the kinds have different names. The
other registrations of a longer run start from where these end. -/
theorem registerKinds_of_accepted {r : InstructionRegistry} {kinds : List Kind}
    (hnodup : kinds.Nodup) (h : ∀ kind ∈ kinds, ¬ r.Refuses kind.name) :
    ∃ r', r.Installed kinds r' ∧
      ∀ rest, r.registerKinds (kinds ++ rest) = r'.registerKinds rest := by
  induction kinds generalizing r with
  | nil => exact ⟨r, r.installed_nil, fun _ => rfl⟩
  | cons kind kinds ih =>
    obtain ⟨hkind, hnodup⟩ := List.nodup_cons.mp hnodup
    obtain ⟨hfirst, hrest⟩ := List.forall_mem_cons.mp h
    obtain ⟨next, hstep, hnext⟩ := registerKinds_cons_of_accepted hfirst
    have hlater : ∀ k ∈ kinds, ¬ next.Refuses k.name := by
      intro k hk
      have hne : k ∉ [kind] := fun hmem => hkind (List.mem_singleton.mp hmem ▸ hk)
      rw [hstep.refuses_iff hne]
      exact hrest k hk
    obtain ⟨r', hinstalled, hrun⟩ := ih hnodup hlater
    refine ⟨r', hstep.append hinstalled, ?_⟩
    intro rest
    rw [List.cons_append, hnext, hrun]

/-- The run stops at the first name that is refused. -/
theorem registerKinds_of_refused {r : InstructionRegistry} {before after : List Kind}
    {kind : Kind} (hnodup : (before ++ kind :: after).Nodup)
    (hbefore : ∀ k ∈ before, ¬ r.Refuses k.name) (hkind : r.Refuses kind.name) :
    ∃ r', r.Installed before r' ∧
      r.registerKinds (before ++ kind :: after) = (r', .error (.alreadyRegistered kind.name)) := by
  obtain ⟨hnodup', -, hdisjoint⟩ := List.nodup_append.mp hnodup
  obtain ⟨r', hinstalled, hrun⟩ := registerKinds_of_accepted hnodup' hbefore
  have hnew : kind ∉ before := fun hmem => hdisjoint kind hmem kind List.mem_cons_self rfl
  refine ⟨r', hinstalled, ?_⟩
  rw [hrun, registerKinds_cons_of_refused ((hinstalled.refuses_iff hnew).mpr hkind)]

/-- A run gets through, or there is a first name that is refused. -/
theorem registerKinds_cases (r : InstructionRegistry) {kinds : List Kind} (hnodup : kinds.Nodup) :
    (∃ r', r.registerKinds kinds = (r', .ok ()) ∧ r.Installed kinds r' ∧
        ∀ kind ∈ kinds, ¬ r.Refuses kind.name) ∨
      ∃ before kind after r', kinds = before ++ kind :: after ∧
        r.registerKinds kinds = (r', .error (.alreadyRegistered kind.name)) ∧
        r.Installed before r' ∧ (∀ k ∈ before, ¬ r.Refuses k.name) ∧ r.Refuses kind.name := by
  cases hfind : kinds.find? fun kind => decide (r.Refuses kind.name) with
  | none =>
    have haccepted : ∀ kind ∈ kinds, ¬ r.Refuses kind.name := by
      simpa using List.find?_eq_none.mp hfind
    obtain ⟨r', hinstalled, hrun⟩ := registerKinds_of_accepted hnodup haccepted
    refine Or.inl ⟨r', ?_, hinstalled, haccepted⟩
    rw [← List.append_nil kinds, hrun]
    rfl
  | some kind =>
    obtain ⟨hkind, before, after, rfl, hbefore⟩ := List.find?_eq_some_iff_append.mp hfind
    simp only [decide_eq_true_eq, Bool.not_eq_eq_eq_not, Bool.not_true, decide_eq_false_iff_not]
      at hkind hbefore
    obtain ⟨r', hinstalled, hrun⟩ := registerKinds_of_refused hnodup hbefore hkind
    exact Or.inr ⟨before, kind, after, r', rfl, hrun, hinstalled, hbefore, hkind⟩

-- ---------------------------------------------------------------------------
-- The built-in registry
-- ---------------------------------------------------------------------------

theorem registerKinds_all_of_overwrite {r : InstructionRegistry} (h : r.policy = .overwrite) :
    ∃ r', r.registerKinds Kind.all = (r', .ok ()) ∧ r.Installed Kind.all r' := by
  rcases r.registerKinds_cases Kind.nodup_all with
    ⟨r', hrun, hinstalled, -⟩ | ⟨_, _, _, _, -, -, -, -, hstrict, -⟩
  · exact ⟨r', hrun, hinstalled⟩
  · rw [h] at hstrict
    cases hstrict

theorem installed_builtins : empty.Installed Kind.all builtins := by
  obtain ⟨r', hrun, hinstalled⟩ := @registerKinds_all_of_overwrite empty rfl
  rwa [builtins, hrun]

theorem get?_builtins (name : String) :
    builtins.factories.get? name = (Kind.ofName? name).map Kind.create := by
  cases hkind : Kind.ofName? name with
  | some kind =>
    rw [← Kind.ofName?_eq_some_iff.mp hkind]
    exact installed_builtins.bound kind kind.mem_all
  | none =>
    apply installed_builtins.kept
    intro hname
    obtain ⟨kind, -, rfl⟩ := List.mem_map.mp hname
    rw [Kind.ofName?_name] at hkind
    cases hkind

/-- The built-in registry builds an instruction by the kind its name stands for. -/
theorem createWithParams_builtins_eq_ok_iff {name : String} {bits : List Nat}
    {params : List Float} {i : Instruction} :
    builtins.createWithParams name bits params = .ok i ↔
      ∃ kind : Kind, kind.name = name ∧ kind.create bits params = .ok i := by
  rw [createWithParams, get?_builtins]
  constructor
  · intro h
    cases hkind : Kind.ofName? name with
    | none =>
      rw [hkind] at h
      cases h
    | some kind =>
      rw [hkind] at h
      exact ⟨kind, Kind.ofName?_eq_some_iff.mp hkind, h⟩
  · rintro ⟨kind, rfl, h⟩
    rw [Kind.ofName?_name]
    exact h

-- ---------------------------------------------------------------------------
-- Any registry
-- ---------------------------------------------------------------------------

/-- **Installing the built-in instructions into any registry.** Under the policy of
overwriting all fifteen names are bound to the built-in factories. Under the strict policy this
is so if and only if none of the names was bound. Otherwise the first of them that was bound,
in the order of registration, is reported, the names before it are bound to their factories,
and they were not bound before. In all cases the other names stay as they were. -/
theorem registerKinds_all_outcome (r : InstructionRegistry) :
    Kind.all.map Kind.name = ["H", "X", "Y", "Z", "S", "T", "Rx", "Ry", "Rz", "CNOT", "CZ",
      "Swap", "Measure", "Bias", "Coupler"] ∧
    (r.policy = .overwrite →
      ∃ r', r.registerKinds Kind.all = (r', .ok ()) ∧ r.Installed Kind.all r') ∧
    (r.policy = .strict →
      ((r.registerKinds Kind.all).2 = .ok () ↔ ∀ kind ∈ Kind.all, r.contains kind.name = false) ∧
      ((∀ kind ∈ Kind.all, r.contains kind.name = false) →
        ∃ r', r.registerKinds Kind.all = (r', .ok ()) ∧ r.Installed Kind.all r') ∧
      ((∃ kind ∈ Kind.all, r.contains kind.name = true) →
        ∃ before kind after r', Kind.all = before ++ kind :: after ∧
          (∀ k ∈ before, r.contains k.name = false) ∧ r.contains kind.name = true ∧
          r.registerKinds Kind.all = (r', .error (.alreadyRegistered kind.name)) ∧
          r.Installed before r')) := by
  refine ⟨rfl, registerKinds_all_of_overwrite, ?_⟩
  intro hstrict
  have hfree : ∀ name, ¬ r.Refuses name ↔ r.contains name = false := by
    intro name
    simp [Refuses, hstrict]
  rcases r.registerKinds_cases Kind.nodup_all with
    ⟨r', hrun, hinstalled, haccepted⟩ |
      ⟨before, kind, after, r', hall, hrun, hinstalled, hbefore, hkind⟩
  · simp only [hfree] at haccepted
    refine ⟨iff_of_true (by rw [hrun]) haccepted, fun _ => ⟨r', hrun, hinstalled⟩, ?_⟩
    rintro ⟨kind, hmem, hbound⟩
    rw [haccepted kind hmem] at hbound
    cases hbound
  · simp only [hfree] at hbefore
    have hbound : ¬ ∀ kind ∈ Kind.all, r.contains kind.name = false := by
      intro hall
      have hunbound := hall kind kind.mem_all
      rw [hkind.2] at hunbound
      cases hunbound
    refine ⟨iff_of_false (by simp [hrun]) hbound, fun hall => absurd hall hbound, fun _ => ?_⟩
    exact ⟨before, kind, after, r', hall, hbefore, hkind.2, hrun, hinstalled⟩

/-- A strict registry in which one of the built-in names stands for something else. -/
def crowdedRegistry : InstructionRegistry :=
  ⟨⟨[("Rx", Kind.bias.create), ("Toffoli", Kind.swap.create)]⟩, .strict⟩

theorem registerKinds_all_outcome_crowded :
    crowdedRegistry.policy = .strict ∧ crowdedRegistry.contains Kind.rx.name = true ∧
      (∃ before after r', Kind.all = before ++ .rx :: after ∧
        crowdedRegistry.registerKinds Kind.all = (r', .error (.alreadyRegistered "Rx")) ∧
        crowdedRegistry.Installed before r') ∧
      (crowdedRegistry.setPolicy .overwrite).policy = .overwrite ∧
      ∃ r', (crowdedRegistry.setPolicy .overwrite).registerKinds Kind.all = (r', .ok ()) ∧
        r'.factories.get? "Rx" = some Kind.rx.create ∧
        r'.factories.get? "Toffoli" = some Kind.swap.create := by
  obtain ⟨-, -, hstrict⟩ := registerKinds_all_outcome crowdedRegistry
  obtain ⟨-, hoverwrite, -⟩ := registerKinds_all_outcome (crowdedRegistry.setPolicy .overwrite)
  refine ⟨rfl, rfl, ?_, rfl, ?_⟩
  · obtain ⟨before, kind, after, r', hall, -, -, hrun, hinstalled⟩ :=
      (hstrict rfl).2.2 ⟨.rx, by decide, rfl⟩
    have hfault : (crowdedRegistry.registerKinds Kind.all).2 =
        .error (.alreadyRegistered Kind.rx.name) := rfl
    rw [hrun, Except.error.injEq, InstructionFault.alreadyRegistered.injEq] at hfault
    obtain rfl := Kind.name_injective hfault
    exact ⟨before, after, r', hall, hrun, hinstalled⟩
  · obtain ⟨r', hrun, hinstalled⟩ := hoverwrite rfl
    exact ⟨r', hrun, hinstalled.bound .rx (by decide), hinstalled.kept "Toffoli" (by decide)⟩

end InstructionRegistry

end QuantumCompiler
