import QuantumCompiler.Proofs.Backend.Recipe
import QuantumCompiler.Proofs.Decimal.Exact

/-!
# What a lowered program costs

The native gates of a program can be counted without lowering it. What a gate costs is told
by its name, and what gates an instruction takes is told by its name as well, so the names of
the instructions give the `Budget`: how many gates of each cost there will be.

The totals of a sequence are computed in doubles, gate by gate. Here the same steps are taken
in rational numbers, from the rational numbers that the costs of the machine stand for. These
exact totals are the counts of the budget weighted by the costs. Doubles give them too as
long as no step has to round (`Unrounded`).

* `Budget.ofGates`, `Budget.ofInstructions` — gates as they stand, and as instructions ask
  for them;
* `budget_lower` — the two agree on accepted programs;
* `costs_perm` — the costs of the gates, but for their order;
* `exactSum_lower`, `exactNumber_total` — sums of a cost over the gates, exact and in doubles;
* `lower_budget` — counts and totals of an accepted program.
-/

namespace QuantumCompiler

open QuantumCompiler.Decimal

-- ---------------------------------------------------------------------------
-- Budgets
-- ---------------------------------------------------------------------------

/-- Native gates, counted by what they cost. -/
@[ext]
structure Budget where
  /-- The controlled-Z gates. -/
  pairs : Nat
  /-- The measurements. -/
  measurements : Nat
  /-- The rotations about the Z axis. -/
  frames : Nat
  /-- The rotations about the X and the Y axis. -/
  turns : Nat
  deriving DecidableEq

namespace Budget

/-- Native gates counted by their names. -/
def ofGates (names : List String) : Budget where
  pairs := names.count "cz"
  measurements := names.count "measure"
  frames := names.count "rz"
  turns := names.count "rx" + names.count "ry"

/-- The native gates that instructions take, by the names of the instructions. -/
def ofInstructions (names : List String) : Budget where
  pairs := names.count "CZ" + names.count "CNOT" + 3 * names.count "Swap"
  measurements := names.count "Measure"
  frames := names.count "Z" + names.count "S" + names.count "T" + names.count "Rz"
  turns := names.count "X" + names.count "Y" + names.count "Rx" + names.count "Ry" +
    2 * names.count "H" + 2 * names.count "CNOT" + 6 * names.count "Swap"

instance : Add Budget where
  add b b' := ⟨b.pairs + b'.pairs, b.measurements + b'.measurements, b.frames + b'.frames,
    b.turns + b'.turns⟩

theorem add_def (b b' : Budget) :
    b + b' = ⟨b.pairs + b'.pairs, b.measurements + b'.measurements, b.frames + b'.frames,
      b.turns + b'.turns⟩ :=
  rfl

theorem ofGates_append (names names' : List String) :
    ofGates (names ++ names') = ofGates names + ofGates names' := by
  simp only [ofGates, List.count_append, add_def, Budget.mk.injEq, true_and]
  omega

theorem ofInstructions_append (names names' : List String) :
    ofInstructions (names ++ names') = ofInstructions names + ofInstructions names' := by
  simp only [ofInstructions, List.count_append, add_def, Budget.mk.injEq, true_and]
  omega

/-- One entry for each gate, the same for gates of one cost. -/
def spread {β : Type} (b : Budget) (pair measurement frame turn : β) : List β :=
  List.replicate b.pairs pair ++ List.replicate b.measurements measurement ++
    List.replicate b.frames frame ++ List.replicate b.turns turn

section Spread

variable {β : Type} (b : Budget)

/-- Entries of two budgets together, but for the order. -/
theorem spread_add_perm (b' : Budget) (pair measurement frame turn : β) :
    ((b + b').spread pair measurement frame turn).Perm
      (b.spread pair measurement frame turn ++ b'.spread pair measurement frame turn) := by
  rw [← Multiset.coe_eq_coe]
  simp only [spread, add_def, List.replicate_add, ← Multiset.coe_add]
  abel

theorem sum_spread (pair measurement frame turn : ℚ) :
    (b.spread pair measurement frame turn).sum =
      b.pairs * pair + b.measurements * measurement + b.frames * frame + b.turns * turn := by
  simp only [spread, List.sum_append, List.sum_replicate, nsmul_eq_mul]

theorem prod_spread (pair measurement frame turn : ℚ) :
    (b.spread pair measurement frame turn).prod =
      pair ^ b.pairs * measurement ^ b.measurements * frame ^ b.frames * turn ^ b.turns := by
  simp only [spread, List.prod_append, List.prod_replicate]

end Spread

/-- The duration of a machine's gates in these numbers. Changes of frame take no time. -/
def duration (b : Budget) (t : QmiTarget) : ℚ :=
  b.pairs * exactNumber t.twoQubitDurationNs + b.measurements * exactNumber t.measureDurationNs +
    b.frames * 0 + b.turns * exactNumber t.singleQubitDurationNs

/-- The sum of the infidelities of a machine's gates in these numbers. -/
def infidelity (b : Budget) (t : QmiTarget) : ℚ :=
  b.pairs * exactNumber t.twoQubitInfidelity + b.measurements * exactNumber t.measureInfidelity +
    b.frames * 0 + b.turns * exactNumber t.singleQubitInfidelity

/-- The probability that none of these gates of a machine fails. -/
def fidelity (b : Budget) (t : QmiTarget) : ℚ :=
  (1 - exactNumber t.twoQubitInfidelity) ^ b.pairs *
    (1 - exactNumber t.measureInfidelity) ^ b.measurements * (1 - 0) ^ b.frames *
      (1 - exactNumber t.singleQubitInfidelity) ^ b.turns

end Budget

-- ---------------------------------------------------------------------------
-- Lowering keeps to the budget
-- ---------------------------------------------------------------------------

/-- The native gates of a sequence. -/
def Sequence.budget (s : Sequence) : Budget :=
  .ofGates (s.gates.map (·.name))

/-- The native gates that a program takes. -/
def Program.budget (p : Program) : Budget :=
  .ofInstructions (p.instructions.map (·.name))

/-- The name of the gate that a step of a recipe makes. -/
def Step.name : Step → String
  | .rx _ _ => "rx"
  | .ry _ _ => "ry"
  | .rz _ _ => "rz"
  | .cz _ _ => "cz"
  | .measure _ => "measure"

theorem Step.name_of_read? {s : Step} {t : QmiTarget} {bits : List Nat} {params : List Float}
    {g : NativeGate} (h : s.read? t bits params = some g) : g.name = s.name := by
  cases s with
  | rx k angle | ry k angle | rz k angle | cz j k =>
    obtain ⟨q, -, h⟩ := Option.bind_eq_some_iff.mp h
    obtain ⟨x, -, h⟩ := Option.bind_eq_some_iff.mp h
    cases h
    rfl
  | measure k =>
    obtain ⟨q, -, h⟩ := Option.bind_eq_some_iff.mp h
    cases h
    rfl

/-- A recipe has the gates that the name of its kind asks for. -/
theorem Kind.budget_of_recipe? {kind : Kind} {r : Recipe} (h : kind.recipe? = some r) :
    Budget.ofGates (r.steps.map Step.name) = Budget.ofInstructions [kind.name] := by
  cases kind <;> cases h <;> decide

theorem QmiTarget.budget_of_expand? {t : QmiTarget} {i : Instruction} {gates : List NativeGate}
    (h : t.expand? i.name i.bits i.params = some gates) :
    Budget.ofGates (gates.map (·.name)) = Budget.ofInstructions [i.name] := by
  obtain ⟨r, hrecipe, hread⟩ := expand?_eq_some_iff.mp h
  obtain ⟨kind, hname, hkind, -, -⟩ := Instruction.recipe?_eq_some_iff.mp hrecipe
  have hnames : gates.map (·.name) = r.steps.map Step.name := by
    have hsame := hread.imp fun s g hg => (Step.name_of_read? hg).symm
    rw [eq_comm, ← List.forall₂_eq_eq_eq, List.forall₂_map_left_iff, List.forall₂_map_right_iff]
    exact hsame
  rw [hnames, Kind.budget_of_recipe? hkind, hname]

theorem budget_flatten {t : QmiTarget} {is : List Instruction} {groups : List (List NativeGate)}
    (h : List.Forall₂ (fun i gates => t.expand? i.name i.bits i.params = some gates) is groups) :
    Budget.ofGates (groups.flatten.map (·.name)) = Budget.ofInstructions (is.map (·.name)) := by
  induction h with
  | nil => rfl
  | @cons i gates is groups hi _ ih =>
    rw [List.flatten_cons, List.map_append, Budget.ofGates_append, ih, t.budget_of_expand? hi,
      ← Budget.ofInstructions_append, List.map_cons, List.singleton_append]

/-- An accepted program has the gates that the names of its instructions ask for. -/
theorem Qmi.budget_lower {q : Qmi} {p : Program} {s : Sequence} (h : q.lower p = .ok s) :
    s.budget = p.budget := by
  obtain ⟨-, -, groups, rfl, hgroups⟩ := lower_eq_ok_iff.mp h
  exact budget_flatten hgroups

-- ---------------------------------------------------------------------------
-- Costs by name
-- ---------------------------------------------------------------------------

/-- What is the same for all gates of one cost, gate by gate: but for the order, this is the
budget spread out. -/
theorem map_perm_spread {β : Type} {f : NativeGate → β} {pair measurement frame turn : β}
    {gates : List NativeGate} (hnative : ∀ g ∈ gates, g.name ∈ Qmi.nativeBasis)
    (hpair : ∀ g ∈ gates, g.name = "cz" → f g = pair)
    (hmeasurement : ∀ g ∈ gates, g.name = "measure" → f g = measurement)
    (hframe : ∀ g ∈ gates, g.name = "rz" → f g = frame)
    (hturn : ∀ g ∈ gates, g.name ∈ ["rx", "ry"] → f g = turn) :
    (gates.map f).Perm
      ((Budget.ofGates (gates.map (·.name))).spread pair measurement frame turn) := by
  induction gates with
  | nil => exact List.Perm.refl _
  | cons g gates ih =>
    rw [List.forall_mem_cons] at hnative hpair hmeasurement hframe hturn
    have hrest := ih hnative.2 hpair.2 hmeasurement.2 hframe.2 hturn.2
    have hone : (Budget.ofGates [g.name]).spread pair measurement frame turn = [f g] := by
      have hname : g.name ∈ ["rx", "ry", "rz", "cz", "measure"] := hnative.1
      simp only [List.mem_cons, List.not_mem_nil, or_false] at hname
      rcases hname with hg | hg | hg | hg | hg
      · rw [hturn.1 (by simp [hg]), hg]
        rfl
      · rw [hturn.1 (by simp [hg]), hg]
        rfl
      · rw [hframe.1 hg, hg]
        rfl
      · rw [hpair.1 hg, hg]
        rfl
      · rw [hmeasurement.1 hg, hg]
        rfl
    have hcons : Budget.ofGates ((g :: gates).map (·.name)) =
        Budget.ofGates [g.name] + Budget.ofGates (gates.map (·.name)) := by
      rw [← Budget.ofGates_append, List.singleton_append, List.map_cons]
    have hsplit := Budget.spread_add_perm (Budget.ofGates [g.name])
      (Budget.ofGates (gates.map (·.name))) pair measurement frame turn
    rw [hone] at hsplit
    rw [hcons, List.map_cons]
    exact (hrest.cons (f g)).trans hsplit.symm

namespace Qmi

variable {q : Qmi} {p : Program} {s : Sequence}

theorem conforms_of_lower (h : q.lower p = .ok s) : ∀ g ∈ s.gates, g.Conforms q.target := by
  intro g hg
  obtain ⟨bits, hemitted⟩ := emitted_of_lower h g hg
  exact hemitted.conforms

/-- What is made of the costs of the gates is made of those of the budget, but for the order. -/
theorem costs_perm {β : Type} (h : q.lower p = .ok s) (figure : Float × Float → β) :
    (s.gates.map fun g => figure (g.durationNs, g.infidelity)).Perm
      (p.budget.spread (figure (q.target.twoQubitDurationNs, q.target.twoQubitInfidelity))
        (figure (q.target.measureDurationNs, q.target.measureInfidelity)) (figure (0.0, 0.0))
        (figure (q.target.singleQubitDurationNs, q.target.singleQubitInfidelity))) := by
  have hconforms := conforms_of_lower h
  have hfigure : ∀ {g : NativeGate} {duration infidelity : Float},
      g.durationNs = duration ∧ g.infidelity = infidelity →
        figure (g.durationNs, g.infidelity) = figure (duration, infidelity) := by
    rintro g _ _ ⟨rfl, rfl⟩
    rfl
  rw [← budget_lower h]
  apply map_perm_spread
  case hnative => exact fun g hg => (hconforms g hg).native
  case hpair => exact fun g hg hname => hfigure ((hconforms g hg).pairCost hname)
  case hmeasurement => exact fun g hg hname => hfigure ((hconforms g hg).measurementCost hname)
  case hframe => exact fun g hg hname => hfigure ((hconforms g hg).frameCost hname)
  case hturn => exact fun g hg hname => hfigure ((hconforms g hg).turnCost hname)

end Qmi

-- ---------------------------------------------------------------------------
-- Totals
-- ---------------------------------------------------------------------------

namespace Sequence

/-- The duration, added up in rational numbers. -/
def exactDuration (s : Sequence) : ℚ :=
  s.gates.foldl (fun total g => total + exactNumber g.durationNs) 0

/-- The sum of the infidelities, added up in rational numbers. -/
def exactInfidelity (s : Sequence) : ℚ :=
  s.gates.foldl (fun total g => total + exactNumber g.infidelity) 0

/-- The probability that no gate fails, multiplied in rational numbers. -/
def exactFidelity (s : Sequence) : ℚ :=
  s.gates.foldl (fun total g => total * (1 - exactNumber g.infidelity)) 1

/-- A total of one figure of the gates, computed in doubles without rounding, is the total in
rational numbers. -/
theorem exactNumber_total {step : Float → Float → Float} {exactStep : ℚ → ℚ → ℚ} {x : Float}
    {gates : List NativeGate} {figure : NativeGate → Float}
    (h : Unrounded step exactStep x (gates.map figure)) :
    exactNumber (gates.foldl (fun total g => step total (figure g)) x) =
      gates.foldl (fun total g => exactStep total (exactNumber (figure g))) (exactNumber x) := by
  have hfold := h.exactNumber_foldl
  rwa [List.foldl_map, List.foldl_map, List.foldl_map] at hfold

end Sequence

namespace Qmi

variable {q : Qmi} {p : Program} {s : Sequence}

/-- A sum over the gates of one of their costs is the counts of the budget times the costs of
the machine. -/
theorem exactSum_lower (h : q.lower p = .ok s) (cost : Float × Float → Float)
    (hframe : cost (0.0, 0.0) = 0.0) :
    s.gates.foldl (fun total g => total + exactNumber (cost (g.durationNs, g.infidelity))) 0 =
      p.budget.pairs *
          exactNumber (cost (q.target.twoQubitDurationNs, q.target.twoQubitInfidelity)) +
        p.budget.measurements *
          exactNumber (cost (q.target.measureDurationNs, q.target.measureInfidelity)) +
        p.budget.frames * 0 +
        p.budget.turns *
          exactNumber (cost (q.target.singleQubitDurationNs, q.target.singleQubitInfidelity)) := by
  have hsum := (costs_perm h fun costs => exactNumber (cost costs)).sum_eq
  rwa [List.sum_eq_foldl, List.foldl_map, Budget.sum_spread, hframe, exactNumber_zero] at hsum

theorem exactFidelity_lower (h : q.lower p = .ok s) :
    s.exactFidelity = p.budget.fidelity q.target := by
  have hprod := (costs_perm h fun costs => 1 - exactNumber costs.2).prod_eq
  rwa [List.prod_eq_foldl, List.foldl_map, Budget.prod_spread, exactNumber_zero] at hprod

/-- **The names of a program's instructions give the cost of its gates.** The gates of an
accepted program are those of its budget, and there are no others. In rational numbers the
duration and the infidelity come to the counts of the budget times the costs of the machine,
and the fidelity to the product of the fidelities to the power of these counts. Where the
computation in doubles does not round, the totals that are reported stand for these numbers. -/
theorem lower_budget (h : q.lower p = .ok s) :
    s.budget = p.budget ∧
    s.gates.length = p.budget.pairs + p.budget.measurements + p.budget.frames + p.budget.turns ∧
    s.exactDuration = p.budget.duration q.target ∧
    s.exactInfidelity = p.budget.infidelity q.target ∧
    s.exactFidelity = p.budget.fidelity q.target ∧
    (Unrounded (· + ·) (· + ·) (-0.0) (s.gates.map (·.durationNs)) →
      exactNumber s.totalDurationNs = p.budget.duration q.target) ∧
    (Unrounded (· + ·) (· + ·) (-0.0) (s.gates.map (·.infidelity)) →
      exactNumber s.totalInfidelity = p.budget.infidelity q.target) ∧
    (Unrounded (fun x e => x * (1.0 - e)) (fun x e => x * (1 - e)) 1.0
        (s.gates.map (·.infidelity)) →
      exactNumber s.estimatedFidelity = p.budget.fidelity q.target) := by
  have hduration : s.exactDuration = p.budget.duration q.target := exactSum_lower h Prod.fst rfl
  have hinfidelity : s.exactInfidelity = p.budget.infidelity q.target :=
    exactSum_lower h Prod.snd rfl
  have hfidelity := exactFidelity_lower h
  have hlength : s.gates.length =
      p.budget.pairs + p.budget.measurements + p.budget.frames + p.budget.turns := by
    simpa [Budget.spread, Nat.add_assoc] using (costs_perm h id).length_eq
  refine ⟨budget_lower h, hlength, hduration, hinfidelity, hfidelity, ?_, ?_, ?_⟩
  · intro hexact
    rw [Sequence.totalDurationNs, Sequence.exactNumber_total hexact, exactNumber_neg_zero]
    exact hduration
  · intro hexact
    rw [Sequence.totalInfidelity, Sequence.exactNumber_total hexact, exactNumber_neg_zero]
    exact hinfidelity
  · intro hexact
    rw [Sequence.estimatedFidelity, Sequence.exactNumber_total hexact, exactNumber_one]
    exact hfidelity

/-- Five instructions, one of them known by its name only. -/
def meteredProgram : Program :=
  ⟨"q", [⟨.builtin .h, [0], []⟩, ⟨.builtin .cnot, [0, 1], []⟩, ⟨.free Kind.swap.name, [1, 2], []⟩,
    ⟨.builtin .rz, [2], [0.5]⟩, ⟨.builtin .measure, [2], []⟩]⟩

/-- The sixteen gates of the program take 840 nanoseconds, which the reported double is. -/
theorem lower_budget_metered :
    ∃ s, ({} : Qmi).lower meteredProgram = .ok s ∧ s.budget = ⟨4, 1, 1, 10⟩ ∧
      s.exactDuration = 840 ∧ exactNumber s.totalDurationNs = 840 := by
  obtain ⟨s, hs⟩ : ∃ s, ({} : Qmi).lower meteredProgram = .ok s := ⟨_, rfl⟩
  obtain ⟨hbudget, -, hduration, -, -, hreported, -, -⟩ := lower_budget hs
  have hprogram : meteredProgram.budget = ⟨4, 1, 1, 10⟩ := by decide
  have hnumber : meteredProgram.budget.duration {} = 840 := by
    rw [hprogram]
    decide +kernel
  refine ⟨s, hs, hbudget.trans hprogram, hduration.trans hnumber, ?_⟩
  refine (hreported ?_).trans hnumber
  cases hs
  decide +kernel

end Qmi

end QuantumCompiler
