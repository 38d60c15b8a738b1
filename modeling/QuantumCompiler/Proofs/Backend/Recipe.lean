import Mathlib.Data.List.Nodup
import QuantumCompiler.Proofs.Backend.Outcome

/-!
# Recipes of the gate-model back end

Every kind of the circuit model has a recipe: the counts of operands and parameters that it
goes with, and native gates in which qubits and angles are given by position. An instruction
is lowered by its recipe if it has the name and the counts, whatever else it is; the recipe
then reads the operands and parameters without another check.

* `Recipe`, `Kind.recipe?` — the table; `Recipe.read?` fails at a position that is not there;
* `Recipe.Closed` — a recipe reads only what its counts provide, as all of the table do;
* `expand?_eq_read` — the back end expands instructions by these recipes;
* `lowerByPosition_eq` — lowering by position never meets a position that is not there;
* `Emitted` — the native gates that a recipe can make of operands;
* `NativeGate.Conforms` — the counts and costs that go with the name of a native gate;
* `lower_native` — what all of this says of the gates of a program.
-/

namespace QuantumCompiler

-- ---------------------------------------------------------------------------
-- Recipes
-- ---------------------------------------------------------------------------

/-- An angle of a recipe: a fixed one, or the parameter at a position. -/
inductive Angle where
  | fixed (angle : Float)
  | param (position : Nat)

/-- A native gate of a recipe, on the operands at given positions. -/
inductive Step where
  | rx (operand : Nat) (angle : Angle)
  | ry (operand : Nat) (angle : Angle)
  | rz (operand : Nat) (angle : Angle)
  | cz (first second : Nat)
  | measure (operand : Nat)

/-- How instructions of one name are lowered. -/
structure Recipe where
  /-- The number of operands it goes with. -/
  qubits : Nat
  /-- The number of parameters it goes with. -/
  params : Nat
  /-- The native gates. -/
  steps : List Step

/-- The positions of the parameters that an angle reads. -/
def Angle.params : Angle → List Nat
  | .fixed _ => []
  | .param k => [k]

/-- The positions of the operands that a step reads. -/
def Step.operands : Step → List Nat
  | .rx k _ | .ry k _ | .rz k _ | .measure k => [k]
  | .cz a b => [a, b]

/-- The positions of the parameters that a step reads. -/
def Step.params : Step → List Nat
  | .rx _ angle | .ry _ angle | .rz _ angle => angle.params
  | .cz _ _ | .measure _ => []

/-- A controlled-NOT gate between the operands at two positions. -/
def Step.cnot (control target : Nat) : List Step :=
  [.ry target (.fixed (-QmiTarget.halfPi)), .cz control target,
    .ry target (.fixed QmiTarget.halfPi)]

/-- The recipe of a kind. -/
def Kind.recipe? : Kind → Option Recipe
  | .x => some ⟨1, 0, [.rx 0 (.fixed QmiTarget.pi)]⟩
  | .y => some ⟨1, 0, [.ry 0 (.fixed QmiTarget.pi)]⟩
  | .z => some ⟨1, 0, [.rz 0 (.fixed QmiTarget.pi)]⟩
  | .h => some ⟨1, 0, [.ry 0 (.fixed QmiTarget.halfPi), .rx 0 (.fixed QmiTarget.pi)]⟩
  | .s => some ⟨1, 0, [.rz 0 (.fixed QmiTarget.halfPi)]⟩
  | .t => some ⟨1, 0, [.rz 0 (.fixed QmiTarget.quarterPi)]⟩
  | .rx => some ⟨1, 1, [.rx 0 (.param 0)]⟩
  | .ry => some ⟨1, 1, [.ry 0 (.param 0)]⟩
  | .rz => some ⟨1, 1, [.rz 0 (.param 0)]⟩
  | .cz => some ⟨2, 0, [.cz 0 1]⟩
  | .cnot => some ⟨2, 0, Step.cnot 0 1⟩
  | .swap => some ⟨2, 0, Step.cnot 0 1 ++ Step.cnot 1 0 ++ Step.cnot 0 1⟩
  | .measure => some ⟨1, 0, [.measure 0]⟩
  | .bias | .coupler => none

/-- The recipe of an instruction: that of its name, if the counts are right. -/
def Instruction.recipe? (i : Instruction) : Option Recipe :=
  ((Kind.ofName? i.name).bind Kind.recipe?).filter fun r =>
    r.qubits = i.bits.length && r.params = i.params.length

/-- The value of an angle, if its position is there. -/
def Angle.read? (params : List Float) : Angle → Option Float
  | .fixed angle => some angle
  | .param k => params[k]?

/-- The native gate of a step, if its positions are there. -/
def Step.read? (t : QmiTarget) (bits : List Nat) (params : List Float) : Step → Option NativeGate
  | .rx k angle => do return t.rx (← bits[k]?) (← angle.read? params)
  | .ry k angle => do return t.ry (← bits[k]?) (← angle.read? params)
  | .rz k angle => do return t.rz (← bits[k]?) (← angle.read? params)
  | .cz a b => do return t.cz (← bits[a]?) (← bits[b]?)
  | .measure k => do return t.measure (← bits[k]?)

/-- The native gates of a recipe, if all positions that it reads are there. -/
def Recipe.read? (t : QmiTarget) (bits : List Nat) (params : List Float) (r : Recipe) :
    Option (List NativeGate) :=
  r.steps.mapM (Step.read? t bits params)

-- ---------------------------------------------------------------------------
-- Positions
-- ---------------------------------------------------------------------------

/-- The positions that a step reads are below the given counts. -/
structure Step.Within (s : Step) (qubits params : Nat) : Prop where
  operands : ∀ k ∈ s.operands, k < qubits
  params : ∀ k ∈ s.params, k < params

/-- A recipe reads only what its counts provide, and no gate reads one operand twice. -/
def Recipe.Closed (r : Recipe) : Prop :=
  ∀ s ∈ r.steps, s.Within r.qubits r.params ∧ s.operands.Nodup

theorem Kind.closed_of_recipe? {kind : Kind} {r : Recipe} (h : kind.recipe? = some r) :
    r.Closed := by
  have hdecide : ∀ s ∈ r.steps, ((∀ k ∈ s.operands, k < r.qubits) ∧ ∀ k ∈ s.params, k < r.params) ∧
      s.operands.Nodup := by
    cases kind <;> cases h <;> decide
  intro s hs
  obtain ⟨⟨hoperands, hparams⟩, hnodup⟩ := hdecide s hs
  exact ⟨⟨hoperands, hparams⟩, hnodup⟩

/-- The counts of a recipe are those of its kind. -/
theorem Kind.counts_of_recipe? {kind : Kind} {r : Recipe} (h : kind.recipe? = some r) :
    r.qubits = kind.arity ∧ r.params = kind.numParams := by
  cases kind <;> cases h <;> exact ⟨rfl, rfl⟩

theorem Kind.recipe?_isSome_iff (kind : Kind) : kind.recipe?.isSome = true ↔ kind ∈ gates := by
  cases kind <;> decide

theorem Angle.exists_read? {angle : Angle} {params : List Float}
    (h : ∀ k ∈ angle.params, k < params.length) : ∃ x, angle.read? params = some x := by
  cases angle with
  | fixed x => exact ⟨x, rfl⟩
  | param k =>
    have hk : k < params.length := h k (List.mem_singleton_self k)
    exact ⟨_, List.getElem?_eq_getElem hk⟩

/-- A step whose positions are there has a gate. -/
theorem Step.Within.exists_read? {s : Step} {bits : List Nat} {params : List Float}
    (h : s.Within bits.length params.length) (t : QmiTarget) :
    ∃ g, s.read? t bits params = some g := by
  have hbit : ∀ k ∈ s.operands, ∃ q, bits[k]? = some q :=
    fun k hk => ⟨_, List.getElem?_eq_getElem (h.operands k hk)⟩
  cases s with
  | rx k angle | ry k angle | rz k angle =>
    obtain ⟨q, hq⟩ := hbit k (List.mem_singleton_self k)
    obtain ⟨x, hx⟩ := Angle.exists_read? h.params
    exact ⟨_, by simp only [Step.read?, hq, hx]; rfl⟩
  | cz a b =>
    obtain ⟨q, hq⟩ := hbit a (by simp [Step.operands])
    obtain ⟨q', hq'⟩ := hbit b (by simp [Step.operands])
    exact ⟨_, by simp only [Step.read?, hq, hq']; rfl⟩
  | measure k =>
    obtain ⟨q, hq⟩ := hbit k (List.mem_singleton_self k)
    exact ⟨_, by simp only [Step.read?, hq]; rfl⟩

theorem Recipe.exists_read? {r : Recipe} {bits : List Nat} {params : List Float}
    (h : ∀ s ∈ r.steps, s.Within bits.length params.length) (t : QmiTarget) :
    ∃ gates, r.read? t bits params = some gates :=
  exists_mapM_eq_some fun s hs => (h s hs).exists_read? t

namespace Instruction

variable {i : Instruction} {r : Recipe}

theorem recipe?_eq_some_iff :
    i.recipe? = some r ↔ ∃ kind : Kind, kind.name = i.name ∧ kind.recipe? = some r ∧
      r.qubits = i.bits.length ∧ r.params = i.params.length := by
  simp only [recipe?, Option.filter_eq_some_iff, Option.bind_eq_some_iff, Kind.ofName?_eq_some_iff,
    Bool.and_eq_true, decide_eq_true_eq]
  constructor
  · rintro ⟨⟨kind, hname, hkind⟩, hcounts⟩
    exact ⟨kind, hname, hkind, hcounts⟩
  · rintro ⟨kind, hname, hkind, hcounts⟩
    exact ⟨⟨kind, hname, hkind⟩, hcounts⟩

/-- Every position that the recipe of an instruction reads is there. -/
theorem within_of_recipe? (h : i.recipe? = some r) :
    ∀ s ∈ r.steps, s.Within i.bits.length i.params.length := by
  obtain ⟨kind, -, hkind, hbits, hparams⟩ := recipe?_eq_some_iff.mp h
  intro s hs
  have hwithin := (Kind.closed_of_recipe? hkind s hs).1
  rwa [hbits, hparams] at hwithin

theorem nodup_operands_of_recipe? (h : i.recipe? = some r) : ∀ s ∈ r.steps, s.operands.Nodup := by
  obtain ⟨kind, -, hkind, -, -⟩ := recipe?_eq_some_iff.mp h
  exact fun s hs => (Kind.closed_of_recipe? hkind s hs).2

/-- The instructions with a recipe are those of the circuit model. -/
theorem recipe?_isSome_iff : i.recipe?.isSome = true ↔ i.Shaped Kind.gates := by
  rw [Option.isSome_iff_exists]
  constructor
  · rintro ⟨r, h⟩
    obtain ⟨kind, hname, hkind, hbits, hparams⟩ := recipe?_eq_some_iff.mp h
    obtain ⟨harity, hnum⟩ := Kind.counts_of_recipe? hkind
    have hgate : kind ∈ Kind.gates := kind.recipe?_isSome_iff.mp (by rw [hkind]; rfl)
    exact ⟨kind, hgate, hname, by omega, by omega⟩
  · rintro ⟨kind, hgate, hname, hbits, hparams⟩
    obtain ⟨r, hkind⟩ := Option.isSome_iff_exists.mp (kind.recipe?_isSome_iff.mpr hgate)
    obtain ⟨harity, hnum⟩ := Kind.counts_of_recipe? hkind
    exact ⟨r, recipe?_eq_some_iff.mpr ⟨kind, hname, hkind, by omega, by omega⟩⟩

end Instruction

-- ---------------------------------------------------------------------------
-- The back end goes by the recipes
-- ---------------------------------------------------------------------------

/-- A recipe read at operands and parameters of its counts is the expansion of its kind. -/
theorem QmiTarget.expand?_name (t : QmiTarget) {kind : Kind} {r : Recipe} {bits : List Nat}
    {params : List Float} (hkind : kind.recipe? = some r) (hbits : r.qubits = bits.length)
    (hparams : r.params = params.length) :
    t.expand? kind.name bits params = r.read? t bits params := by
  obtain ⟨harity, hnum⟩ := Kind.counts_of_recipe? hkind
  have hlen : bits.length = kind.arity := hbits.symm.trans harity
  have hcount : params.length = kind.numParams := hparams.symm.trans hnum
  cases kind with
  | bias | coupler => cases hkind
  | rx | ry | rz =>
    cases hkind
    obtain ⟨q, rfl⟩ := List.length_eq_one_iff.mp hlen
    obtain ⟨angle, rfl⟩ := List.length_eq_one_iff.mp hcount
    rfl
  | cnot | cz | swap =>
    cases hkind
    obtain ⟨a, b, rfl⟩ := List.length_eq_two.mp hlen
    obtain rfl := List.length_eq_zero_iff.mp hcount
    rfl
  | h | x | y | z | s | t | measure =>
    cases hkind
    obtain ⟨q, rfl⟩ := List.length_eq_one_iff.mp hlen
    obtain rfl := List.length_eq_zero_iff.mp hcount
    rfl

/-- The back end expands an instruction by reading its recipe. -/
theorem QmiTarget.expand?_eq_read (t : QmiTarget) (i : Instruction) :
    t.expand? i.name i.bits i.params = i.recipe?.bind fun r => r.read? t i.bits i.params := by
  cases hrecipe : i.recipe? with
  | none =>
    have hshape : ¬ i.Shaped Kind.gates := by
      rw [← Instruction.recipe?_isSome_iff, hrecipe]
      simp
    rw [← t.expand?_isSome_iff, Bool.not_eq_true, Option.isSome_eq_false_iff,
      Option.isNone_iff_eq_none] at hshape
    exact hshape
  | some r =>
    obtain ⟨kind, hname, hkind, hbits, hparams⟩ := Instruction.recipe?_eq_some_iff.mp hrecipe
    rw [← hname]
    exact t.expand?_name hkind hbits hparams

theorem QmiTarget.expand?_eq_some_iff {t : QmiTarget} {i : Instruction} {gates : List NativeGate} :
    t.expand? i.name i.bits i.params = some gates ↔
      ∃ r, i.recipe? = some r ∧ List.Forall₂ (fun s g => s.read? t i.bits i.params = some g)
        r.steps gates := by
  rw [t.expand?_eq_read, Option.bind_eq_some_iff]
  exact exists_congr fun r => and_congr_right fun _ => mapM_eq_some_iff

/-- Why lowering by position ends early: for a fault of the program, or because there is
nothing at a position that a recipe reads. -/
inductive Stop where
  | fault (fault : CompileFault)
  | nothingThere

namespace Qmi

/-- Lower the instruction at a position in the program by its recipe. -/
def lowerInstructionByPosition (q : Qmi) (located : Instruction × Nat) :
    Except Stop (List NativeGate) :=
  let (i, index) := located
  match i.recipe? with
  | none => .error (.fault (.unsupported i.name index))
  | some r => do
    (checkQubits index i.bits q.target.numQubits).mapError Stop.fault
    match r.read? q.target i.bits i.params with
    | some gates => return gates
    | none => .error .nothingThere

/-- Lower a program by the recipes of its instructions, which are not protected against
positions that are not there. -/
def lowerByPosition (q : Qmi) (p : Program) : Except Stop Sequence :=
  match p.validate q.limits with
  | .error fault => .error (.fault (.validation fault))
  | .ok () => do
    let gates ← p.instructions.zipIdx.mapM q.lowerInstructionByPosition
    return ⟨backendName, gates.flatten⟩

theorem lowerInstructionByPosition_eq (q : Qmi) (located : Instruction × Nat) :
    q.lowerInstructionByPosition located = (q.lowerInstruction located).mapError Stop.fault := by
  obtain ⟨i, index⟩ := located
  have hexpand := q.target.expand?_eq_read i
  cases hrecipe : i.recipe? with
  | none =>
    rw [hrecipe] at hexpand
    simp only [lowerInstructionByPosition, lowerInstruction, hrecipe, hexpand]
    rfl
  | some r =>
    obtain ⟨gates, hgates⟩ := Recipe.exists_read? (Instruction.within_of_recipe? hrecipe) q.target
    rw [hrecipe, Option.bind_some, hgates] at hexpand
    simp only [lowerInstructionByPosition, lowerInstruction, hrecipe, hexpand, hgates]
    cases checkQubits index i.bits q.target.numQubits with
    | error fault => rfl
    | ok _ => rfl

/-- Lowering by position is lowering: it never stops for want of an operand or a parameter. -/
theorem lowerByPosition_eq (q : Qmi) (p : Program) :
    q.lowerByPosition p = (q.lower p).mapError Stop.fault := by
  unfold lowerByPosition lower
  cases p.validate q.limits with
  | error fault => rfl
  | ok _ =>
    have hfun : q.lowerInstructionByPosition =
        fun located => (q.lowerInstruction located).mapError Stop.fault :=
      funext q.lowerInstructionByPosition_eq
    dsimp only
    rw [hfun, mapM_mapError]
    cases p.instructions.zipIdx.mapM q.lowerInstruction with
    | error fault => rfl
    | ok gates => rfl

end Qmi

-- ---------------------------------------------------------------------------
-- The gates
-- ---------------------------------------------------------------------------

/-- The native gates that a recipe can make of operands. -/
inductive Emitted (t : QmiTarget) (bits : List Nat) : NativeGate → Prop
  | rx {q : Nat} {angle : Float} (hq : q ∈ bits) : Emitted t bits (t.rx q angle)
  | ry {q : Nat} {angle : Float} (hq : q ∈ bits) : Emitted t bits (t.ry q angle)
  | rz {q : Nat} {angle : Float} (hq : q ∈ bits) : Emitted t bits (t.rz q angle)
  | cz {a b : Nat} (ha : a ∈ bits) (hb : b ∈ bits) (hne : bits.Nodup → a ≠ b) :
      Emitted t bits (t.cz a b)
  | measure {q : Nat} (hq : q ∈ bits) : Emitted t bits (t.measure q)

/-- Distinct positions of a list without repetition hold distinct entries. -/
theorem ne_of_getElem?_of_nodup {bits : List Nat} {j k a b : Nat} (hjk : j ≠ k)
    (ha : bits[j]? = some a) (hb : bits[k]? = some b) (hnodup : bits.Nodup) : a ≠ b := by
  obtain ⟨hj, rfl⟩ := List.getElem?_eq_some_iff.mp ha
  obtain ⟨hk, rfl⟩ := List.getElem?_eq_some_iff.mp hb
  exact fun heq => hjk ((hnodup.getElem_inj_iff).mp heq)

theorem Step.emitted {s : Step} {t : QmiTarget} {bits : List Nat} {params : List Float}
    {g : NativeGate} (hs : s.operands.Nodup) (h : s.read? t bits params = some g) :
    Emitted t bits g := by
  cases s with
  | rx k angle | ry k angle | rz k angle =>
    obtain ⟨q, hq, h⟩ := Option.bind_eq_some_iff.mp h
    obtain ⟨x, -, h⟩ := Option.bind_eq_some_iff.mp h
    cases h
    constructor
    exact List.mem_of_getElem? hq
  | cz j k =>
    obtain ⟨a, ha, h⟩ := Option.bind_eq_some_iff.mp h
    obtain ⟨b, hb, h⟩ := Option.bind_eq_some_iff.mp h
    cases h
    have hjk : j ≠ k := by simpa [Step.operands] using hs
    exact .cz (List.mem_of_getElem? ha) (List.mem_of_getElem? hb)
      (ne_of_getElem?_of_nodup hjk ha hb)
  | measure k =>
    obtain ⟨q, hq, h⟩ := Option.bind_eq_some_iff.mp h
    cases h
    exact .measure (List.mem_of_getElem? hq)

theorem QmiTarget.emitted_of_expand? {t : QmiTarget} {i : Instruction} {gates : List NativeGate}
    (h : t.expand? i.name i.bits i.params = some gates) : ∀ g ∈ gates, Emitted t i.bits g := by
  obtain ⟨r, hrecipe, hread⟩ := expand?_eq_some_iff.mp h
  intro g hg
  obtain ⟨s, hs, hsg⟩ := exists_of_mem_forall₂ hread hg
  exact Step.emitted (Instruction.nodup_operands_of_recipe? hrecipe s hs) hsg

/-- A native gate has a name of the basis, and the counts and costs that go with the name. -/
structure NativeGate.Conforms (t : QmiTarget) (g : NativeGate) : Prop where
  native : g.name ∈ Qmi.nativeBasis
  rotation : g.name ∈ ["rx", "ry", "rz"] → g.qubits.length = 1 ∧ g.parameters.length = 1
  pair : g.name = "cz" → g.qubits.length = 2 ∧ g.parameters = []
  measurement : g.name = "measure" → g.qubits.length = 1 ∧ g.parameters = []
  frameCost : g.name = "rz" → g.durationNs = 0.0 ∧ g.infidelity = 0.0
  turnCost : g.name ∈ ["rx", "ry"] →
    g.durationNs = t.singleQubitDurationNs ∧ g.infidelity = t.singleQubitInfidelity
  pairCost : g.name = "cz" →
    g.durationNs = t.twoQubitDurationNs ∧ g.infidelity = t.twoQubitInfidelity
  measurementCost : g.name = "measure" →
    g.durationNs = t.measureDurationNs ∧ g.infidelity = t.measureInfidelity

namespace Emitted

variable {t : QmiTarget} {bits : List Nat} {g : NativeGate}

theorem conforms (h : Emitted t bits g) : g.Conforms t := by
  cases h with
  | rx => constructor <;> simp [QmiTarget.rx, Qmi.nativeBasis]
  | ry => constructor <;> simp [QmiTarget.ry, Qmi.nativeBasis]
  | rz => constructor <;> simp [QmiTarget.rz, Qmi.nativeBasis]
  | cz => constructor <;> simp [QmiTarget.cz, Qmi.nativeBasis]
  | measure => constructor <;> simp [QmiTarget.measure, Qmi.nativeBasis]

theorem mem_bits (h : Emitted t bits g) : ∀ b ∈ g.qubits, b ∈ bits := by
  cases h with
  | rx hq | ry hq | rz hq | measure hq => exact List.forall_mem_singleton.mpr hq
  | cz ha hb => exact List.forall_mem_cons.mpr ⟨ha, List.forall_mem_singleton.mpr hb⟩

theorem nodup_qubits (h : Emitted t bits g) (hbits : bits.Nodup) : g.qubits.Nodup := by
  cases h with
  | rx | ry | rz | measure => exact List.nodup_singleton _
  | cz ha hb hne => exact List.nodup_cons.mpr ⟨by simpa using hne hbits, List.nodup_singleton _⟩

end Emitted

namespace Qmi

/-- Every gate of an accepted program is one that a recipe can make. -/
theorem emitted_of_lower {q : Qmi} {p : Program} {s : Sequence} (h : q.lower p = .ok s) :
    ∀ g ∈ s.gates, ∃ bits, Emitted q.target bits g := by
  obtain ⟨-, -, groups, rfl, hgroups⟩ := lower_eq_ok_iff.mp h
  intro g hg
  obtain ⟨gates, hgates, hg⟩ := List.mem_flatten.mp hg
  obtain ⟨i, -, hexpand⟩ := exists_of_mem_forall₂ hgroups hgates
  exact ⟨i.bits, QmiTarget.emitted_of_expand? hexpand g hg⟩

/-- **Lowering reads no operand and no parameter that is not there, and stays in the native
basis**, for all instructions that a program can hold. The gates of an accepted program come
in groups, one per instruction; each is of the basis, with the counts and costs of its name,
on operands of its own instruction that exist, and on distinct ones if these are distinct. -/
theorem lower_native (q : Qmi) (p : Program) :
    (∀ i ∈ p.instructions, ∀ r, i.recipe? = some r →
      ∀ s ∈ r.steps, s.Within i.bits.length i.params.length) ∧
    q.lowerByPosition p = (q.lower p).mapError Stop.fault ∧
    ∀ s, q.lower p = .ok s → ∃ groups : List (List NativeGate), s.gates = groups.flatten ∧
      List.Forall₂ (fun i gates => q.target.expand? i.name i.bits i.params = some gates ∧
        ∀ g ∈ gates, g.Conforms q.target ∧
          (∀ b ∈ g.qubits, b ∈ i.bits ∧ b < q.target.numQubits) ∧
          (i.bits.Nodup → g.qubits.Nodup)) p.instructions groups := by
  refine ⟨fun i _ r hr => Instruction.within_of_recipe? hr, q.lowerByPosition_eq p, ?_⟩
  intro s hs
  obtain ⟨-, hrange, groups, rfl, hgroups⟩ := lower_eq_ok_iff.mp hs
  refine ⟨groups, rfl, ((List.forall₂_and_left _ _).mpr ⟨hrange, hgroups⟩).imp ?_⟩
  rintro i gates ⟨hrange, hexpand⟩
  refine ⟨hexpand, fun g hg => ?_⟩
  have hemitted := QmiTarget.emitted_of_expand? hexpand g hg
  refine ⟨hemitted.conforms, fun b hb => ?_, hemitted.nodup_qubits⟩
  have hmem : b ∈ i.bits := hemitted.mem_bits b hb
  exact ⟨hmem, hrange b hmem⟩

/-- An exchange that is not built in but has the name and the counts of one. -/
def foreignExchange : Instruction :=
  ⟨.free Kind.swap.name, [2, 1], []⟩

/-- A program with a built-in instruction and the foreign one. -/
def foreignProgram : Program :=
  ⟨"q", [⟨.builtin .h, [0], []⟩, foreignExchange]⟩

theorem lower_native_foreignProgram :
    (∃ r, foreignExchange.recipe? = some r ∧ r.steps.length = 9 ∧ ∀ s ∈ r.steps, s.Within 2 0) ∧
      ∃ s, ({} : Qmi).lower foreignProgram = .ok s ∧
        ({} : Qmi).lowerByPosition foreignProgram = .ok s ∧ s.gates.length = 11 ∧
          ∀ g ∈ s.gates, g.Conforms {} := by
  obtain ⟨hwithin, hposition, hlower⟩ := lower_native {} foreignProgram
  obtain ⟨s, hs⟩ : ∃ s, ({} : Qmi).lower foreignProgram = .ok s := ⟨_, rfl⟩
  obtain ⟨groups, hgates, hgroups⟩ := hlower s hs
  have hforeign : foreignExchange ∈ foreignProgram.instructions := by simp [foreignProgram]
  refine ⟨⟨_, rfl, rfl, hwithin foreignExchange hforeign _ rfl⟩, s, hs, ?_, ?_, ?_⟩
  · rw [hposition, hs]
    rfl
  · cases hs
    rfl
  · intro g hg
    obtain ⟨gates, hmem, hg⟩ := List.mem_flatten.mp (hgates ▸ hg)
    obtain ⟨i, -, -, hall⟩ := exists_of_mem_forall₂ hgroups hmem
    exact (hall g hg).1

end Qmi

end QuantumCompiler
