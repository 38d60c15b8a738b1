import Mathlib.Data.List.Induction
import QuantumCompiler.Proofs.Instruction.Builtins

/-!
# The instruction registry and its history

A `Session` uses one registry from its beginning: it registers factories, changes the
policy and takes snapshots, in any order. Whether a registration succeeds depends on the
policy at that moment and on the registrations before it, so what a name stands for in the
end depends on how registrations and changes of the policy are interleaved.

The history tells it all the same. A step of it is a successful registration if the call
returned without a fault (`Registers`); the latest of these for a name gives the factory
that the name stands for (`Latest`).

* `policy_after`       — the policy is the last one set;
* `get?_after_iff`     — the registry binds a name as the latest registration does;
* `snapshots_after`    — later steps leave a snapshot alone;
* `registry_reflects_history` — all answers of a registry, by its history;
* `forwarded_name_is_unknown` — a registered name may still be answered as an unknown one,
  by its own factory.
-/

namespace QuantumCompiler.InstructionRegistry

-- ---------------------------------------------------------------------------
-- Sessions
-- ---------------------------------------------------------------------------

/-- What can be done to a registry. -/
inductive Step where
  | register (name : String) (factory : Factory)
  | setPolicy (policy : RegistrationPolicy)
  | snapshot

/-- A registry and the snapshots taken of it, in order. -/
structure Session where
  /-- The registry. -/
  registry : InstructionRegistry := {}
  /-- The snapshots. -/
  snapshots : List (Table Factory) := []

namespace Session

/-- The session after a step, and the result of the call. -/
def perform (s : Session) : Step → Session × Except InstructionFault Unit
  | .register name factory =>
    match s.registry.register name factory with
    | .ok registry => ({ s with registry := registry }, .ok ())
    | .error fault => (s, .error fault)
  | .setPolicy policy => ({ s with registry := s.registry.setPolicy policy }, .ok ())
  | .snapshot => ({ s with snapshots := s.snapshots ++ [s.registry.factories] }, .ok ())

/-- The session after steps one after the other, with an empty registry at first. -/
def after (steps : List Step) : Session :=
  steps.foldl (fun s step => (s.perform step).1) {}

theorem after_concat (steps : List Step) (step : Step) :
    after (steps ++ [step]) = ((after steps).perform step).1 := by
  simp [after]

/-- A registration is refused without a trace, or it binds the name. -/
theorem perform_register_cases (s : Session) (name : String) (factory : Factory) :
    (s.registry.policy = .strict ∧ s.registry.contains name = true ∧
        s.perform (.register name factory) = (s, .error (.alreadyRegistered name))) ∨
      (¬ (s.registry.policy = .strict ∧ s.registry.contains name = true) ∧
        s.perform (.register name factory) =
          ({ s with registry :=
              { s.registry with factories := s.registry.factories.insert name factory } },
            .ok ())) := by
  by_cases hrefused : s.registry.Refuses name
  · refine Or.inl ⟨hrefused.1, hrefused.2, ?_⟩
    simp only [perform, register_of_refused hrefused]
  · refine Or.inr ⟨hrefused, ?_⟩
    simp only [perform, register_of_accepted hrefused]

theorem sorted_after (steps : List Step) : (after steps).registry.factories.Sorted := by
  induction steps using List.reverseRecOn with
  | nil => exact Table.sorted_empty
  | append_singleton steps step ih =>
    rw [after_concat]
    cases step with
    | register name factory =>
      obtain ⟨-, -, hperform⟩ | ⟨-, hperform⟩ := (after steps).perform_register_cases name factory
      · rw [hperform]
        exact ih
      · rw [hperform]
        exact ih.insert name factory
    | setPolicy policy => exact ih
    | snapshot => exact ih

end Session

open Session

-- ---------------------------------------------------------------------------
-- The history
-- ---------------------------------------------------------------------------

/-- The policy in force after a step, given the one before it. -/
def Step.policyFrom (before : RegistrationPolicy) : Step → RegistrationPolicy
  | .setPolicy policy => policy
  | .register _ _ => before
  | .snapshot => before

/-- The policy that a history leaves in force. -/
def policyAfter (steps : List Step) : RegistrationPolicy :=
  steps.foldl Step.policyFrom .overwrite

/-- The step at position `k` registered the factory under the name, successfully. -/
def Registers (steps : List Step) (k : Nat) (name : String) (factory : Factory) : Prop :=
  steps[k]? = some (.register name factory) ∧
    ((after (steps.take k)).perform (.register name factory)).2 = .ok ()

/-- The name was registered successfully at some time. -/
def Registered (steps : List Step) (name : String) : Prop :=
  ∃ k factory, Registers steps k name factory

/-- The latest successful registration of the name was with this factory. -/
def Latest (steps : List Step) (name : String) (factory : Factory) : Prop :=
  ∃ k, Registers steps k name factory ∧ ∀ j other, Registers steps j name other → j ≤ k

theorem policy_after (steps : List Step) : (after steps).registry.policy = policyAfter steps := by
  induction steps using List.reverseRecOn with
  | nil => rfl
  | append_singleton steps step ih =>
    have hconcat : policyAfter (steps ++ [step]) = step.policyFrom (policyAfter steps) :=
      List.foldl_append
    rw [after_concat, hconcat]
    cases step with
    | register name factory =>
      obtain ⟨-, -, hperform⟩ | ⟨-, hperform⟩ := (after steps).perform_register_cases name factory
      · rw [hperform]
        exact ih
      · rw [hperform]
        exact ih
    | setPolicy policy => rfl
    | snapshot => exact ih

theorem Registers.lt_length {steps : List Step} {k : Nat} {name : String} {factory : Factory}
    (h : Registers steps k name factory) : k < steps.length :=
  (List.getElem?_eq_some_iff.mp h.1).1

/-- Whether a step was a successful registration does not depend on what follows. -/
theorem registers_append_iff {steps later : List Step} {k : Nat} (hk : k < steps.length)
    {name : String} {factory : Factory} :
    Registers (steps ++ later) k name factory ↔ Registers steps k name factory := by
  unfold Registers
  rw [List.getElem?_append_left hk, List.take_append_of_le_length (Nat.le_of_lt hk)]

theorem registers_concat_self {steps : List Step} {name : String} {factory : Factory}
    (h : ((after steps).perform (.register name factory)).2 = .ok ()) :
    Registers (steps ++ [.register name factory]) steps.length name factory := by
  refine ⟨List.getElem?_concat_length, ?_⟩
  rw [List.take_left]
  exact h

/-- A history that ends in anything but a successful registration of the name has the same
registrations of it as before. -/
theorem registers_concat_iff {steps : List Step} {step : Step} {name : String}
    (h : ∀ factory, step = .register name factory → ((after steps).perform step).2 ≠ .ok ())
    {k : Nat} {factory : Factory} :
    Registers (steps ++ [step]) k name factory ↔ Registers steps k name factory := by
  constructor
  · intro hk
    by_cases hlt : k < steps.length
    · exact (registers_append_iff hlt).mp hk
    · -- only the last step is left, and it is not such a registration
      have hlen : k < (steps ++ [step]).length := hk.lt_length
      rw [List.length_append, List.length_singleton] at hlen
      obtain rfl : k = steps.length := by omega
      obtain ⟨hget, hok⟩ := hk
      rw [List.getElem?_concat_length] at hget
      obtain rfl := Option.some.inj hget
      rw [List.take_left] at hok
      exact absurd hok (h factory rfl)
  · intro hk
    exact (registers_append_iff hk.lt_length).mpr hk

theorem latest_concat_iff {steps : List Step} {step : Step} {name : String}
    (h : ∀ factory, step = .register name factory → ((after steps).perform step).2 ≠ .ok ())
    {factory : Factory} :
    Latest (steps ++ [step]) name factory ↔ Latest steps name factory := by
  unfold Latest
  simp only [registers_concat_iff h]

theorem latest_concat_self {steps : List Step} {name : String} {factory other : Factory}
    (h : ((after steps).perform (.register name factory)).2 = .ok ()) :
    Latest (steps ++ [.register name factory]) name other ↔ other = factory := by
  have hself := registers_concat_self h
  constructor
  · rintro ⟨k, hk, hlatest⟩
    -- the last step is a registration of the name, so it is the latest
    have hle : steps.length ≤ k := hlatest _ _ hself
    have hlt : k < (steps ++ [Step.register name factory]).length := hk.lt_length
    rw [List.length_append, List.length_singleton] at hlt
    obtain rfl : k = steps.length := by omega
    have hget := hk.1
    rw [List.getElem?_concat_length] at hget
    cases hget
    rfl
  · rintro rfl
    refine ⟨steps.length, hself, ?_⟩
    intro j g hj
    have hlt := hj.lt_length
    rw [List.length_append, List.length_singleton] at hlt
    omega

-- ---------------------------------------------------------------------------
-- Bindings
-- ---------------------------------------------------------------------------

/-- A name is bound to the factory of its latest registration. The induction is on the end
of the history, where the last step either registers the name or leaves it alone. -/
theorem get?_after_iff (steps : List Step) (name : String) (factory : Factory) :
    (after steps).registry.factories.get? name = some factory ↔ Latest steps name factory := by
  induction steps using List.reverseRecOn with
  | nil =>
    constructor
    · intro h
      cases h
    · rintro ⟨k, hk, -⟩
      exact absurd hk.lt_length (Nat.not_lt_zero k)
  | append_singleton steps step ih =>
    rw [after_concat]
    cases step with
    | register n g =>
      obtain ⟨-, -, hperform⟩ | ⟨-, hperform⟩ := (after steps).perform_register_cases n g
      · have hfailed : ∀ f : Factory, Step.register n g = .register name f →
            ((after steps).perform (.register n g)).2 ≠ .ok () := by
          intro f _
          simp [hperform]
        rw [latest_concat_iff hfailed, hperform]
        exact ih
      · have hok : ((after steps).perform (.register n g)).2 = .ok () := by rw [hperform]
        rw [hperform, Table.get?_insert]
        by_cases hname : name = n
        · subst hname
          rw [if_pos rfl, latest_concat_self hok, Option.some.injEq, eq_comm]
        · have hother : ∀ f : Factory, Step.register n g = .register name f →
              ((after steps).perform (.register n g)).2 ≠ .ok () := by
            intro f heq
            cases heq
            exact absurd rfl hname
          rw [if_neg hname, latest_concat_iff hother]
          exact ih
    | setPolicy policy =>
      rw [latest_concat_iff (fun f heq => by cases heq)]
      exact ih
    | snapshot =>
      rw [latest_concat_iff (fun f heq => by cases heq)]
      exact ih

/-- Among the registrations of a name there is a latest one. -/
theorem registered_iff_exists_latest {steps : List Step} {name : String} :
    Registered steps name ↔ ∃ factory, Latest steps name factory := by
  constructor
  · intro h
    induction steps using List.reverseRecOn with
    | nil =>
      obtain ⟨k, factory, hk⟩ := h
      exact absurd hk.lt_length (Nat.not_lt_zero k)
    | append_singleton steps step ih =>
      by_cases hlast : ∃ factory, step = .register name factory ∧
          ((after steps).perform step).2 = .ok ()
      · obtain ⟨factory, rfl, hok⟩ := hlast
        exact ⟨factory, (latest_concat_self hok).mpr rfl⟩
      · have hother : ∀ factory, step = .register name factory →
            ((after steps).perform step).2 ≠ .ok () :=
          fun factory hstep hok => hlast ⟨factory, hstep, hok⟩
        obtain ⟨k, factory, hk⟩ := h
        obtain ⟨latest, hlatest⟩ := ih ⟨k, factory, (registers_concat_iff hother).mp hk⟩
        exact ⟨latest, (latest_concat_iff hother).mpr hlatest⟩
  · rintro ⟨factory, k, hk, -⟩
    exact ⟨k, factory, hk⟩

theorem contains_after_iff {steps : List Step} {name : String} :
    (after steps).registry.contains name = true ↔ Registered steps name := by
  rw [registered_iff_exists_latest, InstructionRegistry.contains, Table.contains_iff]
  exact exists_congr (get?_after_iff steps name)

theorem mem_names_after_iff {steps : List Step} {name : String} :
    name ∈ (after steps).registry.names ↔ Registered steps name := by
  rw [← contains_after_iff]
  exact (sorted_after steps).mem_names_iff

theorem createWithParams_of_latest {steps : List Step} {name : String} {factory : Factory}
    (h : Latest steps name factory) {bits : List Nat} {params : List Float} :
    (after steps).registry.createWithParams name bits params = factory bits params := by
  rw [createWithParams, (get?_after_iff steps name factory).mpr h]

theorem createWithParams_of_not_registered {steps : List Step} {name : String}
    (h : ¬ Registered steps name) (bits : List Nat) (params : List Float) :
    (after steps).registry.createWithParams name bits params = .error (.unknown name) := by
  have hnone : (after steps).registry.factories.get? name = none := by
    rw [← Table.contains_eq_false_iff, Bool.eq_false_iff]
    exact fun hbound => h (contains_after_iff.mp hbound)
  rw [createWithParams, hnone]

/-- A name that was registered stays registered. -/
theorem Registered.append {steps : List Step} {name : String} (h : Registered steps name)
    (later : List Step) : Registered (steps ++ later) name := by
  obtain ⟨k, factory, hk⟩ := h
  exact ⟨k, factory, (registers_append_iff hk.lt_length).mpr hk⟩

-- ---------------------------------------------------------------------------
-- Snapshots
-- ---------------------------------------------------------------------------

theorem snapshots_perform (s : Session) (step : Step) :
    s.snapshots <+: (s.perform step).1.snapshots := by
  cases step with
  | register name factory =>
    obtain ⟨-, -, hperform⟩ | ⟨-, hperform⟩ := s.perform_register_cases name factory
    · exact ⟨[], by rw [hperform, List.append_nil]⟩
    · exact ⟨[], by rw [hperform, List.append_nil]⟩
  | setPolicy policy => exact List.prefix_rfl
  | snapshot => exact List.prefix_append _ _

theorem snapshots_after (steps later : List Step) :
    (after steps).snapshots <+: (after (steps ++ later)).snapshots := by
  induction later using List.reverseRecOn with
  | nil => exact ⟨[], by simp only [List.append_nil]⟩
  | append_singleton later step ih =>
    rw [← List.append_assoc, after_concat]
    exact ih.trans (snapshots_perform _ step)

/-- A snapshot is the table of the moment it was taken, whatever comes later. -/
theorem getElem?_snapshots_after (steps later : List Step) :
    (after (steps ++ .snapshot :: later)).snapshots[(after steps).snapshots.length]? =
      some (after steps).registry.factories := by
  have htaken : (after (steps ++ [.snapshot])).snapshots =
      (after steps).snapshots ++ [(after steps).registry.factories] := by
    rw [after_concat]
    rfl
  have hkept := snapshots_after (steps ++ [.snapshot]) later
  rw [List.append_assoc, List.singleton_append, htaken] at hkept
  obtain ⟨newer, hnewer⟩ := hkept
  rw [← hnewer, List.append_assoc, List.getElem?_append_right (Nat.le_refl _), Nat.sub_self]
  rfl

-- ---------------------------------------------------------------------------
-- Answers
-- ---------------------------------------------------------------------------

/-- What a registry answers, in terms of its history. -/
structure Session.Reflects (s : Session) (steps : List Step) : Prop where
  refused_iff : ∀ name factory,
    (∃ fault, (s.perform (.register name factory)).2 = .error fault) ↔
      policyAfter steps = .strict ∧ Registered steps name
  refused : ∀ name factory fault, (s.perform (.register name factory)).2 = .error fault →
    fault = .alreadyRegistered name ∧ (s.perform (.register name factory)).1 = s
  unknown_iff : ∀ name bits params,
    s.registry.createWithParams name bits params = .error (.unknown name) ↔
      ¬ Registered steps name ∨
        ∃ factory, Latest steps name factory ∧ factory bits params = .error (.unknown name)
  registered : ∀ name, Registered steps name → ∃ factory, Latest steps name factory ∧
    ∀ bits params, s.registry.createWithParams name bits params = factory bits params
  increasing : s.registry.names.Pairwise (· < ·)
  mem_names : ∀ name, name ∈ s.registry.names ↔ Registered steps name
  contains : ∀ name, s.registry.contains name = true ↔ name ∈ s.registry.names
  size : s.registry.size = s.registry.names.length

theorem reflects_after (steps : List Step) : (after steps).Reflects steps where
  refused_iff name factory := by
    rw [← policy_after, ← contains_after_iff]
    obtain ⟨hstrict, hbound, hperform⟩ | ⟨hnot, hperform⟩ :=
      (after steps).perform_register_cases name factory
    · simp [hperform, hstrict, hbound]
    · simpa [hperform] using hnot
  refused name factory fault hfault := by
    obtain ⟨-, -, hperform⟩ | ⟨-, hperform⟩ := (after steps).perform_register_cases name factory
    · rw [hperform] at hfault ⊢
      exact ⟨(Except.error.inj hfault).symm, rfl⟩
    · rw [hperform] at hfault
      cases hfault
  unknown_iff name bits params := by
    constructor
    · intro hunknown
      by_cases hname : Registered steps name
      · obtain ⟨factory, hlatest⟩ := registered_iff_exists_latest.mp hname
        rw [createWithParams_of_latest hlatest] at hunknown
        exact Or.inr ⟨factory, hlatest, hunknown⟩
      · exact Or.inl hname
    · rintro (hname | ⟨factory, hlatest, hfactory⟩)
      · exact createWithParams_of_not_registered hname bits params
      · rw [createWithParams_of_latest hlatest, hfactory]
  registered name hname := by
    obtain ⟨factory, hlatest⟩ := registered_iff_exists_latest.mp hname
    exact ⟨factory, hlatest, fun bits params => createWithParams_of_latest hlatest⟩
  increasing := List.pairwise_map.mpr (sorted_after steps)
  mem_names name := mem_names_after_iff
  contains name := by rw [contains_after_iff, mem_names_after_iff]
  size := (List.length_map _).symm

/-- **The registry reflects its history.** After any sequence of registrations, changes of
the policy and snapshots, a registration is refused exactly if the policy in force is the
strict one and the name was registered successfully before; the fault says so and nothing
changes. A name that was never registered successfully is unknown, and any other name is
answered by the factory of its latest successful registration, which may itself say that the
name is unknown. The names are listed in strictly increasing order and none is ever lost. A
snapshot keeps the names and factories of the moment it was taken. -/
theorem registry_reflects_history (steps : List Step) :
    (after steps).Reflects steps ∧
    (∀ later, (after steps).registry.names ⊆ (after (steps ++ later)).registry.names) ∧
    (∀ later, ∃ table,
      (after (steps ++ .snapshot :: later)).snapshots[(after steps).snapshots.length]? =
        some table ∧
      table.names = (after steps).registry.names ∧
      ∀ name factory, table.get? name = some factory ↔ Latest steps name factory) := by
  refine ⟨reflects_after steps, ?_, ?_⟩
  · intro later name hname
    exact mem_names_after_iff.mpr ((mem_names_after_iff.mp hname).append later)
  · intro later
    exact ⟨_, getElem?_snapshots_after steps later, rfl, get?_after_iff steps⟩

/-- A name whose second registration is refused, before the policy changes back. -/
def flipSteps : List Step :=
  [.register "Flip" Kind.x.create, .setPolicy .strict, .register "Flip" Kind.y.create,
    .setPolicy .overwrite]

theorem registry_reflects_history_flip :
    policyAfter (flipSteps.take 2) = .strict ∧ Registered (flipSteps.take 2) "Flip" ∧
      ((after (flipSteps.take 2)).perform (.register "Flip" Kind.y.create)).1 =
        after (flipSteps.take 2) ∧
      ∃ table, (after (flipSteps ++ [.snapshot, .register "Flip" Kind.z.create])).snapshots[0]? =
          some table ∧
        table.names = ["Flip"] := by
  obtain ⟨hreflects, -, -⟩ := registry_reflects_history (flipSteps.take 2)
  have hregistered : Registered (flipSteps.take 2) "Flip" :=
    (hreflects.mem_names "Flip").mp (by decide)
  obtain ⟨fault, hfault⟩ := (hreflects.refused_iff "Flip" Kind.y.create).mpr ⟨rfl, hregistered⟩
  obtain ⟨table, htable, hnames, -⟩ :=
    (registry_reflects_history flipSteps).2.2 [.register "Flip" Kind.z.create]
  exact ⟨rfl, hregistered, (hreflects.refused _ _ _ hfault).2, table, htable, hnames⟩

/-- A factory that hands its work on to a registry without factories. -/
def forwardingSteps : List Step :=
  [.register "Flip" fun bits params => empty.createWithParams "Flip" bits params]

/-- The answer of a factory may be that its own name is unknown. -/
theorem forwarded_name_is_unknown :
    Registered forwardingSteps "Flip" ∧
      (after forwardingSteps).registry.createWithParams "Flip" [0] [] =
        .error (.unknown "Flip") :=
  ⟨⟨0, _, rfl, rfl⟩, rfl⟩

end QuantumCompiler.InstructionRegistry
