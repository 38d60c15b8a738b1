import QuantumCompiler.Backend.Annealer
import QuantumCompiler.Backend.Qmi
import QuantumCompiler.Proofs.Instruction
import QuantumCompiler.Proofs.Traversal

/-!
# What compiling a program comes to

Both back ends follow one scheme. `Rules` holds what tells them apart: the kinds
they know, the number of qubits, and whether weights have to be finite. By the
rules alone an instruction is `Lowerable`, or it is refused with one fault
(`Refuses`): for its shape first, then for its first operand that does not exist,
then for its weight.

* `Rules.Outcome` — success and every fault of a compilation, by the rules;
* `Rules.Governs.outcome` — the scheme, for any lowering of single instructions that
  goes by the rules;
* `Rules.Governs.of_shape` — the order of the checks that makes a lowering go by them;
* `compile_outcome` — both back ends.
-/

namespace QuantumCompiler

-- ---------------------------------------------------------------------------
-- Rules
-- ---------------------------------------------------------------------------

/-- An instruction has the name of one of these kinds and the operand and parameter
counts that go with it. -/
def Instruction.Shaped (kinds : List Kind) (i : Instruction) : Prop :=
  ∃ kind ∈ kinds, kind.name = i.name ∧ i.bits.length = kind.arity ∧
    i.params.length = kind.numParams

/-- What a back end goes by. -/
structure Rules where
  /-- The kinds it knows. -/
  kinds : List Kind
  /-- The number of addressable qubits. -/
  numQubits : Nat
  /-- Whether parameters have to be finite. -/
  finite : Bool

/-- The first operand that does not exist, as the search finds it. -/
theorem find?_outOfRange_iff {bits : List Nat} {numQubits bit : Nat} :
    (bits.find? fun b => numQubits ≤ b) = some bit ↔
      ∃ before after, bits = before ++ bit :: after ∧ (∀ b ∈ before, b < numQubits) ∧
        numQubits ≤ bit := by
  rw [List.find?_eq_some_iff_append]
  constructor
  · rintro ⟨hbit, before, after, hbits, hbefore⟩
    refine ⟨before, after, hbits, ?_, by simpa using hbit⟩
    intro b hb
    simpa using hbefore b hb
  · rintro ⟨before, after, hbits, hbefore, hbit⟩
    refine ⟨by simpa using hbit, before, after, hbits, ?_⟩
    intro b hb
    simpa using hbefore b hb

namespace Rules

/-- By the rules, an instruction can be lowered. -/
structure Lowerable (r : Rules) (i : Instruction) : Prop where
  shaped : i.Shaped r.kinds
  inRange : ∀ bit ∈ i.bits, bit < r.numQubits
  finite : r.finite = true → ∀ w ∈ i.params, Decimal.isFinite w = true

/-- By the rules, the instruction at a position is refused with a fault. -/
inductive Refuses (r : Rules) (i : Instruction) (index : Nat) : CompileFault → Prop
  /-- The name is unknown, or the counts do not go with it. -/
  | unsupported (hshape : ¬ i.Shaped r.kinds) : Refuses r i index (.unsupported i.name index)
  /-- An operand does not exist, and it is the first. -/
  | outOfRange {before after : List Nat} {bit : Nat} (hshape : i.Shaped r.kinds)
      (hbits : i.bits = before ++ bit :: after) (hbefore : ∀ b ∈ before, b < r.numQubits)
      (hbit : r.numQubits ≤ bit) : Refuses r i index (.qubitOutOfRange index bit r.numQubits)
  /-- The weight is not finite. -/
  | weight {w : Float} (hshape : i.Shaped r.kinds) (hrange : ∀ bit ∈ i.bits, bit < r.numQubits)
      (hrule : r.finite = true) (hparams : i.params = [w]) (hw : Decimal.isFinite w = false) :
      Refuses r i index (.validation (.field s!"instructions[{index}].weight"
        s!"must be finite, got {String.ofList (Decimal.plain w)}"))

/-- What a compilation comes to: the lines of all instructions in order, or the fault
of the validation, or else that of the first instruction that is refused. -/
structure Outcome (r : Rules) (backend : String) (lines : Instruction → List String)
    (limits : Limits) (p : Program) (result : Except CompileFault CompiledProgram) : Prop where
  ok_iff : ∀ c, result = .ok c ↔
    p.validate limits = .ok () ∧ (∀ i ∈ p.instructions, r.Lowerable i) ∧
      c = ⟨backend, p.register, p.instructions.flatMap lines⟩
  error_iff : ∀ fault, result = .error fault ↔
    (∃ invalid, p.validate limits = .error invalid ∧ fault = .validation invalid) ∨
      (p.validate limits = .ok () ∧ ∃ index i, p.instructions[index]? = some i ∧
        (∀ j < index, ∀ i', p.instructions[j]? = some i' → r.Lowerable i') ∧
          r.Refuses i index fault)

/-- An instruction that is refused cannot be lowered. -/
theorem Refuses.not_lowerable {r : Rules} {i : Instruction} {index : Nat} {fault : CompileFault}
    (h : r.Refuses i index fault) : ¬ r.Lowerable i := by
  intro hlow
  cases h with
  | unsupported hshape => exact hshape hlow.shaped
  | @outOfRange before after bit _ hbits _ hbit =>
    have hlt := hlow.inRange bit (by rw [hbits]; simp)
    omega
  | @weight w _ _ hrule hparams hw =>
    have hfinite := hlow.finite hrule w (by rw [hparams]; simp)
    rw [hw] at hfinite
    cases hfinite

/-- The fault of a refused instruction is determined. -/
theorem Refuses.unique {r : Rules} {i : Instruction} {index : Nat} {fault fault' : CompileFault}
    (h : r.Refuses i index fault) (h' : r.Refuses i index fault') : fault = fault' := by
  cases h with
  | unsupported hshape =>
    cases h' with
    | unsupported _ => rfl
    | outOfRange hshape' => exact absurd hshape' hshape
    | weight hshape' => exact absurd hshape' hshape
  | @outOfRange before after bit hshape hbits hbefore hbit =>
    cases h' with
    | unsupported hshape' => exact absurd hshape hshape'
    | @outOfRange before' after' bit' _ hbits' hbefore' hbit' =>
      have hfind := find?_outOfRange_iff.mpr ⟨before, after, hbits, hbefore, hbit⟩
      have hfind' := find?_outOfRange_iff.mpr ⟨before', after', hbits', hbefore', hbit'⟩
      rw [hfind] at hfind'
      rw [Option.some.inj hfind']
    | weight _ hrange =>
      have hlt := hrange bit (by rw [hbits]; simp)
      omega
  | @weight w hshape hrange hrule hparams hw =>
    cases h' with
    | unsupported hshape' => exact absurd hshape hshape'
    | @outOfRange before' after' bit' _ hbits' hbefore' hbit' =>
      have hlt := hrange bit' (by rw [hbits']; simp)
      omega
    | @weight w' _ _ _ hparams' _ =>
      rw [hparams] at hparams'
      rw [(List.cons.inj hparams').1]

-- ---------------------------------------------------------------------------
-- The scheme
-- ---------------------------------------------------------------------------

/-- A lowering of single instructions goes by the rules: what it produces for an
instruction are that instruction's lines, and its faults are those of the rules. -/
structure Governs {β : Type} (r : Rules) (lines : Instruction → List String)
    (lowerOne : Instruction × Nat → Except CompileFault β) (render : β → List String) : Prop where
  ok : ∀ i index b, lowerOne (i, index) = .ok b → r.Lowerable i ∧ render b = lines i
  error : ∀ i index fault, lowerOne (i, index) = .error fault → r.Refuses i index fault

section Governs

variable {β : Type} {r : Rules} {lines : Instruction → List String}
  {lowerOne : Instruction × Nat → Except CompileFault β} {render : β → List String}

theorem Governs.exists_ok (h : r.Governs lines lowerOne render) {i : Instruction}
    (hi : r.Lowerable i) (index : Nat) : ∃ b, lowerOne (i, index) = .ok b := by
  cases hlow : lowerOne (i, index) with
  | ok b => exact ⟨b, rfl⟩
  | error fault => exact absurd hi (h.error i index fault hlow).not_lowerable

theorem Governs.eq_error (h : r.Governs lines lowerOne render) {i : Instruction} {index : Nat}
    {fault : CompileFault} (hi : r.Refuses i index fault) :
    lowerOne (i, index) = .error fault := by
  cases hlow : lowerOne (i, index) with
  | ok b => exact absurd (h.ok i index b hlow).1 hi.not_lowerable
  | error fault' => rw [(h.error i index fault' hlow).unique hi]

theorem Governs.mapM_eq_ok (h : r.Governs lines lowerOne render) {is : List Instruction}
    {bs : List β} (hbs : is.zipIdx.mapM lowerOne = .ok bs) :
    (∀ i ∈ is, r.Lowerable i) ∧ bs.flatMap render = is.flatMap lines := by
  have hall := forall₂_of_mapM_zipIdx hbs
  clear hbs
  induction hall with
  | nil => simp
  | @cons i b is bs hb _ ih =>
    obtain ⟨index, hb⟩ := hb
    obtain ⟨hi, hlines⟩ := h.ok i index b hb
    obtain ⟨his, hflat⟩ := ih
    refine ⟨List.forall_mem_cons.mpr ⟨hi, his⟩, ?_⟩
    rw [List.flatMap_cons, List.flatMap_cons, hlines, hflat]

/-- The first instruction that is refused decides. -/
theorem Governs.mapM_eq_error_iff (h : r.Governs lines lowerOne render) {is : List Instruction}
    {fault : CompileFault} :
    is.zipIdx.mapM lowerOne = .error fault ↔
      ∃ (index : Nat) (i : Instruction), is[index]? = some i ∧
        (∀ j < index, ∀ i', is[j]? = some i' → r.Lowerable i') ∧ r.Refuses i index fault := by
  have hget : ∀ (k : Nat) (a : Instruction × Nat),
      is.zipIdx[k]? = some a ↔ ∃ i, is[k]? = some i ∧ a = (i, k) := by
    intro k a
    rw [List.getElem?_zipIdx, Nat.zero_add, Option.map_eq_some_iff]
    exact exists_congr fun i => and_congr_right fun _ => eq_comm
  rw [QuantumCompiler.mapM_eq_error_iff]
  constructor
  · rintro ⟨k, a, hk, hfault, hbefore⟩
    obtain ⟨i, hi, rfl⟩ := (hget k a).mp hk
    refine ⟨k, i, hi, ?_, h.error i k fault hfault⟩
    intro j hj i' hi'
    obtain ⟨b, hb⟩ := hbefore j hj (i', j) ((hget j _).mpr ⟨i', hi', rfl⟩)
    exact (h.ok i' j b hb).1
  · rintro ⟨k, i, hi, hbefore, hrefuses⟩
    refine ⟨k, (i, k), (hget k _).mpr ⟨i, hi, rfl⟩, h.eq_error hrefuses, ?_⟩
    intro j hj a' ha'
    obtain ⟨i', hi', rfl⟩ := (hget j a').mp ha'
    exact h.exists_ok (hbefore j hj i' hi') j

/-- A lowering that goes by the rules, run over a program after its validation, has
the outcome that the rules give. -/
theorem Governs.outcome (h : r.Governs lines lowerOne render) {backend : String}
    {limits : Limits} {p : Program} {result : Except CompileFault CompiledProgram}
    (hinvalid : ∀ invalid, p.validate limits = .error invalid →
      result = .error (.validation invalid))
    (hvalid : p.validate limits = .ok () →
      result = (p.instructions.zipIdx.mapM lowerOne).map fun bs =>
        ⟨backend, p.register, bs.flatMap render⟩) :
    r.Outcome backend lines limits p result := by
  cases hval : p.validate limits with
  | error invalid =>
    rw [hinvalid invalid hval]
    constructor
    · intro c
      simp [hval]
    · intro fault
      simp [hval, eq_comm]
  | ok u =>
    rw [hvalid hval]
    have herror := @mapM_eq_error_iff β r lines lowerOne render h p.instructions
    cases hlow : p.instructions.zipIdx.mapM lowerOne with
    | ok bs =>
      obtain ⟨hall, hflat⟩ := h.mapM_eq_ok hlow
      constructor
      · intro c
        simp only [Except.map, hval, hflat, Except.ok.injEq, true_and]
        exact ⟨fun hc => ⟨hall, hc.symm⟩, fun hc => hc.2.symm⟩
      · intro fault
        simp only [← herror, hlow, hval, Except.map, reduceCtorEq, false_and, exists_false,
          and_false, or_false]
    | error found =>
      have hrefused := herror.mp hlow
      constructor
      · intro c
        simp only [Except.map, reduceCtorEq, false_iff]
        rintro ⟨-, hall, -⟩
        obtain ⟨index, i, hi, -, hrefuses⟩ := hrefused
        exact hrefuses.not_lowerable (hall i (List.mem_of_getElem? hi))
      · intro fault
        simp only [← herror, hlow, hval, Except.map, Except.error.injEq, reduceCtorEq, false_and,
          exists_false, true_and, false_or]

end Governs

end Rules

-- ---------------------------------------------------------------------------
-- The checks of both back ends
-- ---------------------------------------------------------------------------

theorem checkQubits_eq_ok_iff {index numQubits : Nat} {bits : List Nat} :
    checkQubits index bits numQubits = .ok () ↔ ∀ bit ∈ bits, bit < numQubits := by
  unfold checkQubits
  cases hfind : bits.find? fun bit => numQubits ≤ bit with
  | none =>
    simpa using hfind
  | some bit =>
    obtain ⟨before, after, rfl, -, hbit⟩ := find?_outOfRange_iff.mp hfind
    simp only [reduceCtorEq, false_iff]
    intro hall
    have hlt := hall bit (by simp)
    omega

theorem checkQubits_eq_error {index numQubits : Nat} {bits : List Nat} {fault : CompileFault}
    (h : checkQubits index bits numQubits = .error fault) :
    ∃ before bit after, bits = before ++ bit :: after ∧ (∀ b ∈ before, b < numQubits) ∧
      numQubits ≤ bit ∧ fault = .qubitOutOfRange index bit numQubits := by
  unfold checkQubits at h
  cases hfind : bits.find? fun bit => numQubits ≤ bit with
  | none =>
    rw [hfind] at h
    cases h
  | some bit =>
    rw [hfind] at h
    obtain ⟨before, after, hbits, hbefore, hbit⟩ := find?_outOfRange_iff.mp hfind
    exact ⟨before, bit, after, hbits, hbefore, hbit, (Except.error.inj h).symm⟩

/-- A lowering that looks up the shape, then checks the operands and then finishes goes by
the rules, if the shape is that of a known kind and finishing goes by the weight rule. -/
theorem Rules.Governs.of_shape {α β : Type} {r : Rules} {lines : Instruction → List String}
    {lowerOne : Instruction × Nat → Except CompileFault β} {render : β → List String}
    (shape? : Instruction → Option α) (finish : Nat → α → Except CompileFault β)
    (hnone : ∀ i index, shape? i = none → lowerOne (i, index) = .error (.unsupported i.name index))
    (hsome : ∀ i index a, shape? i = some a → lowerOne (i, index) =
      checkQubits index i.bits r.numQubits >>= fun _ => finish index a)
    (hshape : ∀ i, (shape? i).isSome = true ↔ i.Shaped r.kinds)
    (hok : ∀ i index a b, shape? i = some a → finish index a = .ok b →
      (r.finite = true → ∀ w ∈ i.params, Decimal.isFinite w = true) ∧ render b = lines i)
    (herror : ∀ i index a fault, shape? i = some a → (∀ bit ∈ i.bits, bit < r.numQubits) →
      finish index a = .error fault → r.Refuses i index fault) :
    r.Governs lines lowerOne render := by
  constructor
  · intro i index b h
    cases hfound : shape? i with
    | none =>
      rw [hnone i index hfound] at h
      cases h
    | some a =>
      rw [hsome i index a hfound] at h
      obtain ⟨_, hcheck, hfinish⟩ := bind_eq_ok_iff.mp h
      obtain ⟨hfinite, hrender⟩ := hok i index a b hfound hfinish
      have hshaped : i.Shaped r.kinds := (hshape i).mp (by rw [hfound]; rfl)
      exact ⟨⟨hshaped, checkQubits_eq_ok_iff.mp hcheck, hfinite⟩, hrender⟩
  · intro i index fault h
    cases hfound : shape? i with
    | none =>
      rw [hnone i index hfound] at h
      cases h
      refine .unsupported fun hshaped => ?_
      have hisSome := (hshape i).mpr hshaped
      rw [hfound] at hisSome
      cases hisSome
    | some a =>
      rw [hsome i index a hfound] at h
      have hshaped : i.Shaped r.kinds := (hshape i).mp (by rw [hfound]; rfl)
      rcases bind_eq_error_iff.mp h with hcheck | ⟨_, hcheck, hfinish⟩
      · obtain ⟨before, bit, after, hbits, hbefore, hbit, rfl⟩ := checkQubits_eq_error hcheck
        exact .outOfRange hshaped hbits hbefore hbit
      · exact herror i index a fault hfound (checkQubits_eq_ok_iff.mp hcheck) hfinish

-- ---------------------------------------------------------------------------
-- The gate-model back end
-- ---------------------------------------------------------------------------

/-- The gate-model back end expands exactly the instructions of the circuit model. -/
theorem QmiTarget.expand?_isSome_iff (t : QmiTarget) (i : Instruction) :
    (t.expand? i.name i.bits i.params).isSome = true ↔ i.Shaped Kind.gates := by
  constructor
  · intro h
    unfold QmiTarget.expand? at h
    split at h
    case h_14 => cases h
    all_goals
      rename_i hname hbits hparams
      refine ⟨_, ?_, Kind.ofName?_eq_some_iff.mp hname, ?_, ?_⟩
      · decide
      · rw [hbits]
        rfl
      · rw [hparams]
        rfl
  · rintro ⟨kind, hkind, hname, hbits, hparams⟩
    rw [← hname]
    cases kind with
    | bias => exact absurd hkind (by decide)
    | coupler => exact absurd hkind (by decide)
    | rx | ry | rz =>
      obtain ⟨q, hq⟩ := List.length_eq_one_iff.mp hbits
      obtain ⟨angle, hangle⟩ := List.length_eq_one_iff.mp hparams
      rw [hq, hangle]
      rfl
    | cnot | cz | swap =>
      obtain ⟨a, b, hab⟩ := List.length_eq_two.mp hbits
      rw [hab, List.length_eq_zero_iff.mp hparams]
      rfl
    | h | x | y | z | s | t | measure =>
      obtain ⟨q, hq⟩ := List.length_eq_one_iff.mp hbits
      rw [hq, List.length_eq_zero_iff.mp hparams]
      rfl

namespace Qmi

/-- The rules of the gate-model back end. -/
def rules (q : Qmi) : Rules :=
  ⟨Kind.gates, q.target.numQubits, false⟩

/-- The lines of one instruction: those of the gates it expands to. -/
def instructionLines (q : Qmi) (i : Instruction) : List String :=
  ((q.target.expand? i.name i.bits i.params).getD []).map NativeGate.render

theorem governs (q : Qmi) :
    q.rules.Governs q.instructionLines q.lowerInstruction (List.map NativeGate.render) := by
  apply Rules.Governs.of_shape (fun i => q.target.expand? i.name i.bits i.params)
    (fun _ gates => .ok gates)
  case hnone =>
    intro i index hexpand
    simp only [lowerInstruction, hexpand]
  case hsome =>
    intro i index gates hexpand
    simp only [lowerInstruction, hexpand]
    rfl
  case hshape => exact q.target.expand?_isSome_iff
  case hok =>
    intro i index gates gates' hexpand hgates
    cases hgates
    refine ⟨fun hrule => absurd hrule Bool.false_ne_true, ?_⟩
    rw [instructionLines, hexpand]
    rfl
  case herror =>
    intro i index gates fault _ _ hfault
    cases hfault

/-- What lowering one instruction takes: operands that exist, and an expansion. -/
theorem lowerInstruction_eq_ok_iff {q : Qmi} {i : Instruction} {index : Nat}
    {gates : List NativeGate} :
    q.lowerInstruction (i, index) = .ok gates ↔ (∀ bit ∈ i.bits, bit < q.target.numQubits) ∧
      q.target.expand? i.name i.bits i.params = some gates := by
  simp only [lowerInstruction]
  cases q.target.expand? i.name i.bits i.params with
  | none => simp
  | some expanded =>
    simp only [bind_eq_ok_iff, ← @checkQubits_eq_ok_iff index]
    constructor
    · rintro ⟨⟨⟩, hcheck, hgates⟩
      cases hgates
      exact ⟨hcheck, rfl⟩
    · rintro ⟨hcheck, hgates⟩
      cases hgates
      exact ⟨(), hcheck, rfl⟩

/-- What lowering a program takes, and the gates of one that is accepted, instruction by
instruction. -/
theorem lower_eq_ok_iff {q : Qmi} {p : Program} {s : Sequence} :
    q.lower p = .ok s ↔ p.validate q.limits = .ok () ∧
      (∀ i ∈ p.instructions, ∀ bit ∈ i.bits, bit < q.target.numQubits) ∧
      ∃ groups, s = ⟨backendName, groups.flatten⟩ ∧ List.Forall₂ (fun i gates =>
        q.target.expand? i.name i.bits i.params = some gates) p.instructions groups := by
  unfold lower
  cases p.validate q.limits with
  | error fault => simp
  | ok _ =>
    simp only [bind_eq_ok_iff, mapM_zipIdx_eq_ok_iff fun _ _ _ => lowerInstruction_eq_ok_iff,
      List.forall₂_and_left, true_and]
    constructor
    · rintro ⟨groups, ⟨hrange, hgroups⟩, hs⟩
      exact ⟨hrange, groups, (Except.ok.inj hs).symm, hgroups⟩
    · rintro ⟨hrange, groups, rfl, hgroups⟩
      exact ⟨groups, ⟨hrange, hgroups⟩, rfl⟩

theorem outcome_compile (q : Qmi) (p : Program) :
    q.rules.Outcome backendName q.instructionLines q.limits p (q.compile p) := by
  apply q.governs.outcome
  · intro invalid hinvalid
    simp only [compile, lower, hinvalid]
    rfl
  · intro hvalid
    simp only [compile, lower, hvalid, Sequence.lines]
    cases p.instructions.zipIdx.mapM q.lowerInstruction with
    | error fault => rfl
    | ok gates =>
      have hlines : gates.flatten.map NativeGate.render =
          gates.flatMap (List.map NativeGate.render) := by
        rw [List.map_flatten, List.flatMap_def]
      exact congrArg (fun lines => Except.ok (CompiledProgram.mk backendName p.register lines)) hlines

end Qmi

-- ---------------------------------------------------------------------------
-- The annealer back end
-- ---------------------------------------------------------------------------

namespace Annealer

/-- The annealer back end has a term for exactly the biases and couplers. -/
theorem term?_isSome_iff (i : Instruction) :
    (term? i).isSome = true ↔ i.Shaped Kind.annealing := by
  constructor
  · intro h
    unfold term? at h
    split at h
    case h_3 => cases h
    all_goals
      rename_i hname hbits hparams
      refine ⟨_, ?_, Kind.ofName?_eq_some_iff.mp hname, ?_, ?_⟩
      · decide
      · rw [hbits]
        rfl
      · rw [hparams]
        rfl
  · rintro ⟨kind, hkind, hname, hbits, hparams⟩
    unfold term?
    rw [← hname, Kind.ofName?_name]
    rcases List.mem_pair.mp hkind with rfl | rfl
    · obtain ⟨q, hq⟩ := List.length_eq_one_iff.mp hbits
      obtain ⟨w, hw⟩ := List.length_eq_one_iff.mp hparams
      rw [hq, hw]
      rfl
    · obtain ⟨a, b, hab⟩ := List.length_eq_two.mp hbits
      obtain ⟨w, hw⟩ := List.length_eq_one_iff.mp hparams
      rw [hab, hw]
      rfl

/-- The weight of a term is the only parameter of its instruction. -/
theorem params_of_term? {i : Instruction} {term : Term} (h : term? i = some term) :
    i.params = [term.weight] := by
  unfold term? at h
  split at h
  case h_3 => cases h
  all_goals
    rename_i hname hbits hparams
    cases h
    exact hparams

/-- The rules of the annealer back end. -/
def rules (a : Annealer) : Rules :=
  ⟨Kind.annealing, a.target.numQubits, true⟩

/-- The lines of one instruction: that of its term. -/
def instructionLines (i : Instruction) : List String :=
  (term? i).toList.map Term.render

theorem governs (a : Annealer) :
    a.rules.Governs instructionLines a.lowerInstruction (fun term => [term.render]) := by
  apply Rules.Governs.of_shape term? fun index term =>
    if Decimal.isFinite term.weight then .ok term else .error (weightFault index term.weight)
  case hnone =>
    intro i index hterm
    simp only [lowerInstruction, hterm]
  case hsome =>
    intro i index term hterm
    simp only [lowerInstruction, hterm]
    cases Decimal.isFinite term.weight <;> rfl
  case hshape => exact term?_isSome_iff
  case hok =>
    intro i index term term' hterm hfinish
    split at hfinish
    case isFalse => cases hfinish
    case isTrue hweight =>
      cases hfinish
      refine ⟨?_, by rw [instructionLines, hterm]; rfl⟩
      intro _ w hw
      rw [params_of_term? hterm, List.mem_singleton] at hw
      rw [hw, hweight]
  case herror =>
    intro i index term fault hterm hrange hfinish
    split at hfinish
    case isTrue => cases hfinish
    case isFalse hweight =>
      cases hfinish
      have hshaped : i.Shaped Kind.annealing := (term?_isSome_iff i).mp (by rw [hterm]; rfl)
      exact .weight hshaped hrange rfl (params_of_term? hterm) (Bool.eq_false_iff.mpr hweight)

theorem outcome_compile (a : Annealer) (p : Program) :
    a.rules.Outcome backendName instructionLines a.limits p (a.compile p) := by
  apply a.governs.outcome
  · intro invalid hinvalid
    simp only [compile, lower, hinvalid]
    rfl
  · intro hvalid
    simp only [compile, lower, hvalid]
    cases p.instructions.zipIdx.mapM a.lowerInstruction with
    | error fault => rfl
    | ok terms =>
      have hlines : terms.map Term.render = terms.flatMap fun term => [term.render] :=
        List.map_eq_flatMap
      exact congrArg (fun lines => Except.ok (CompiledProgram.mk backendName p.register lines)) hlines

end Annealer

/-- Compiling for either machine succeeds exactly if the program passes the validation
and each of its instructions can be lowered, and then gives their lines in order. It
fails with the fault of the validation, or else with that of the first instruction
that cannot be lowered: for its shape, for its first operand that does not exist, or
for a weight that is not finite. -/
theorem compile_outcome (p : Program) :
    (∀ q : Qmi, (⟨Kind.gates, q.target.numQubits, false⟩ : Rules).Outcome
      "qmi" q.instructionLines q.limits p (q.compile p)) ∧
    (∀ a : Annealer, (⟨Kind.annealing, a.target.numQubits, true⟩ : Rules).Outcome
      "annealer" Annealer.instructionLines a.limits p (a.compile p)) :=
  ⟨fun q => q.outcome_compile p, fun a => a.outcome_compile p⟩

end QuantumCompiler
