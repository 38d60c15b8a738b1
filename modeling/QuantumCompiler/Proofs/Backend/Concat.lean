import QuantumCompiler.Proofs.Backend.Outcome
import QuantumCompiler.Proofs.Program.Limits
import QuantumCompiler.Proofs.Text.Numeral

/-!
# Compiling two programs one after the other

Neither back end carries anything over from one instruction to the next. Two programs over
one register can therefore be compiled apart: the lines of the one are followed by those of
the other. Only two things see the whole: the number of instructions, which has its limit,
and the position that a fault names.

* `Cause` — what is wrong with an instruction, wherever it stands; `Cause.fault` adds the
  position. The position can be read off the fault again (`Cause.fault_inj`).
* `Program.validate_append_iff` — the validation of the whole, by that of the parts;
* `Rules.reaches_append_right_iff` — past instructions that can all be lowered, the lowering
  goes on as if they were not there;
* `Rules.composes` — from the rules to whole programs; `compile_append` — both back ends.
-/

namespace QuantumCompiler

-- ---------------------------------------------------------------------------
-- Faults without their position
-- ---------------------------------------------------------------------------

/-- What is wrong with an instruction, wherever it stands. -/
inductive Cause where
  | unsupported (name : String)
  | outOfRange (qubit limit : Nat)
  | weight (w : Float)

/-- The fault of an instruction at a position. -/
def Cause.fault (index : Nat) : Cause → CompileFault
  | .unsupported name => .unsupported name index
  | .outOfRange qubit limit => .qubitOutOfRange index qubit limit
  | .weight w => Annealer.weightFault index w

theorem weightFault_inj {j k : Nat} {w v : Float}
    (h : Annealer.weightFault j w = Annealer.weightFault k v) :
    j = k ∧ ∀ index, Annealer.weightFault index w = Annealer.weightFault index v := by
  injection h with hfield
  injection hfield with hsubject hmessage
  constructor
  · have hnumber : toString j = toString k := by
      simpa [toString, String.append_left_inj, String.append_right_inj] using hsubject
    exact Text.numeral_injective (String.ofList_injective hnumber)
  · intro index
    rw [Annealer.weightFault, Annealer.weightFault, hmessage]

/-- A fault determines the position it names, and what it says besides. -/
theorem Cause.fault_inj {cause cause' : Cause} {j k : Nat}
    (h : cause.fault j = cause'.fault k) :
    j = k ∧ ∀ index, cause.fault index = cause'.fault index := by
  cases cause with
  | unsupported name =>
    cases cause' with
    | unsupported name' =>
      injection h with hname hindex
      exact ⟨hindex, fun index => by rw [hname]⟩
    | outOfRange qubit limit => cases h
    | weight w => cases h
  | outOfRange qubit limit =>
    cases cause' with
    | unsupported name => cases h
    | outOfRange qubit' limit' =>
      injection h with hindex hqubit hlimit
      exact ⟨hindex, fun index => by rw [hqubit, hlimit]⟩
    | weight w => cases h
  | weight w =>
    cases cause' with
    | unsupported name => cases h
    | outOfRange qubit limit => cases h
    | weight v => exact weightFault_inj h

/-- An instruction that is refused somewhere is refused everywhere, for the same cause. -/
theorem Rules.Refuses.exists_cause {r : Rules} {i : Instruction} {index : Nat}
    {fault : CompileFault} (h : r.Refuses i index fault) :
    ∃ cause : Cause, fault = cause.fault index ∧
      ∀ index', r.Refuses i index' (cause.fault index') := by
  cases h with
  | unsupported hshape => exact ⟨.unsupported i.name, rfl, fun _ => .unsupported hshape⟩
  | @outOfRange before after bit hshape hbits hbefore hbit =>
    exact ⟨.outOfRange bit r.numQubits, rfl, fun _ => .outOfRange hshape hbits hbefore hbit⟩
  | @weight w hshape hrange hrule hparams hw =>
    exact ⟨.weight w, rfl, fun _ => .weight hshape hrange hrule hparams hw⟩

/-- The fault of an instruction moves along with it. -/
theorem Rules.Refuses.moved {r : Rules} {i : Instruction} {j k : Nat} {cause : Cause}
    (h : r.Refuses i j (cause.fault k)) (n : Nat) :
    j = k ∧ r.Refuses i (n + j) (cause.fault (n + k)) := by
  obtain ⟨cause', hfault, hrefuses⟩ := h.exists_cause
  obtain ⟨hindex, hsame⟩ := Cause.fault_inj hfault
  subst hindex
  refine ⟨rfl, ?_⟩
  rw [hsame]
  exact hrefuses (n + k)

-- ---------------------------------------------------------------------------
-- Validation
-- ---------------------------------------------------------------------------

namespace Program

variable {p₁ p₂ : Program}

theorem length_append (p : Program) (is : List Instruction) :
    (p.append is).length = p.length + is.length :=
  List.length_append

theorem operands_append (p : Program) (is : List Instruction) :
    (p.append is).operands = p.operands ++ is.flatMap (·.bits) :=
  List.flatMap_append

/-- Two programs one after the other pass the validation if each does and they are not too
long together. -/
theorem validate_append_iff (hregister : p₁.register = p₂.register) (limits : Limits) :
    (p₁.append p₂.instructions).validate limits = .ok () ↔
      p₁.validate limits = .ok () ∧ p₂.validate limits = .ok () ∧
        p₁.length + p₂.length ≤ limits.maxInstructions := by
  have happend : (p₁.append p₂.instructions).register = p₁.register := rfl
  rw [validate_eq_ok_iff, validate_eq_ok_iff, validate_eq_ok_iff, length_append, operands_append,
    List.forall_mem_append, happend, ← hregister]
  constructor
  · rintro ⟨hname, hlength, hbits₁, hbits₂⟩
    have hlength : p₁.length + p₂.length ≤ limits.maxInstructions := hlength
    exact ⟨⟨hname, by omega, hbits₁⟩, ⟨hname, by omega, hbits₂⟩, hlength⟩
  · rintro ⟨⟨hname, _, hbits₁⟩, ⟨_, _, hbits₂⟩, hlength⟩
    exact ⟨hname, hlength, hbits₁, hbits₂⟩

end Program

-- ---------------------------------------------------------------------------
-- How far the lowering gets
-- ---------------------------------------------------------------------------

namespace Rules

variable {r : Rules} {is₁ is₂ : List Instruction} {index : Nat} {i : Instruction}

/-- The lowering gets as far as an instruction: it can lower all those in front. -/
def Reaches (r : Rules) (is : List Instruction) (index : Nat) (i : Instruction) : Prop :=
  is[index]? = some i ∧ ∀ j < index, ∀ i', is[j]? = some i' → r.Lowerable i'

theorem Reaches.append (h : r.Reaches is₁ index i) (is₂ : List Instruction) :
    r.Reaches (is₁ ++ is₂) index i := by
  obtain ⟨hi, hbefore⟩ := h
  have hlt : index < is₁.length := (List.getElem?_eq_some_iff.mp hi).1
  refine ⟨by rw [List.getElem?_append_left hlt, hi], ?_⟩
  intro j hj i' hi'
  rw [List.getElem?_append_left (by omega)] at hi'
  exact hbefore j hj i' hi'

theorem reaches_append_right_iff (hall : ∀ i ∈ is₁, r.Lowerable i) :
    r.Reaches (is₁ ++ is₂) (is₁.length + index) i ↔ r.Reaches is₂ index i := by
  have hshift : ∀ j, (is₁ ++ is₂)[is₁.length + j]? = is₂[j]? := by
    intro j
    rw [List.getElem?_append_right (by omega), Nat.add_sub_cancel_left]
  constructor
  · rintro ⟨hi, hbefore⟩
    refine ⟨by rw [← hshift, hi], ?_⟩
    intro j hj i' hi'
    exact hbefore (is₁.length + j) (by omega) i' (by rw [hshift, hi'])
  · rintro ⟨hi, hbefore⟩
    refine ⟨by rw [hshift, hi], ?_⟩
    intro j hj i' hi'
    by_cases hlt : j < is₁.length
    · rw [List.getElem?_append_left hlt] at hi'
      exact hall i' (List.mem_of_getElem? hi')
    · obtain ⟨k, rfl⟩ : ∃ k, j = is₁.length + k := ⟨j - is₁.length, by omega⟩
      rw [hshift] at hi'
      exact hbefore k (by omega) i' hi'

/-- Where the first instructions can all be lowered, one that cannot stands after them. -/
theorem Reaches.exists_add_of_append (h : r.Reaches (is₁ ++ is₂) index i)
    (hall : ∀ i ∈ is₁, r.Lowerable i) (hi : ¬ r.Lowerable i) :
    ∃ k, index = is₁.length + k ∧ r.Reaches is₂ k i := by
  have hle : is₁.length ≤ index := by
    by_contra hlt
    have hget := h.1
    rw [List.getElem?_append_left (by omega)] at hget
    exact hi (hall i (List.mem_of_getElem? hget))
  obtain ⟨k, rfl⟩ : ∃ k, index = is₁.length + k := ⟨index - is₁.length, by omega⟩
  exact ⟨k, rfl, (reaches_append_right_iff hall).mp h⟩

variable {backend : String} {lines : Instruction → List String} {limits : Limits} {p : Program}
  {result : Except CompileFault CompiledProgram}

/-- The faults of a compilation after a validation that was passed. -/
theorem Outcome.error_iff_of_valid (h : r.Outcome backend lines limits p result)
    (hvalid : p.validate limits = .ok ()) {fault : CompileFault} :
    result = .error fault ↔
      ∃ index i, r.Reaches p.instructions index i ∧ r.Refuses i index fault := by
  rw [h.error_iff, hvalid]
  simp only [reduceCtorEq, false_and, exists_false, false_or, true_and, Reaches, and_assoc]

end Rules

-- ---------------------------------------------------------------------------
-- Compilation
-- ---------------------------------------------------------------------------

/-- A back end compiles two programs one after the other as it compiles each of them. -/
structure Composes (compile : Program → Except CompileFault CompiledProgram) (limits : Limits)
    (p₁ p₂ : Program) : Prop where
  /-- The whole compiles if and only if the parts do and keep the limit together. Its lines
  are those of the first part and then those of the second. -/
  ok_iff : ∀ c, compile (p₁.append p₂.instructions) = .ok c ↔
    p₁.length + p₂.length ≤ limits.maxInstructions ∧
      ∃ c₁ c₂, compile p₁ = .ok c₁ ∧ compile p₂ = .ok c₂ ∧
        c = ⟨c₁.backend, p₁.register, c₁.lines ++ c₂.lines⟩
  /-- A fault of the first part is that of the whole. -/
  error_left : (p₁.append p₂.instructions).validate limits = .ok () →
    ∀ fault, compile p₁ = .error fault → compile (p₁.append p₂.instructions) = .error fault
  /-- If the first part compiles, then the faults of the whole are those of the second part,
  at positions that are greater by the length of the first. -/
  error_right : (p₁.append p₂.instructions).validate limits = .ok () →
    ∀ c₁, compile p₁ = .ok c₁ → ∀ fault,
      compile (p₁.append p₂.instructions) = .error fault ↔
        ∃ (cause : Cause) (index : Nat), compile p₂ = .error (cause.fault index) ∧
          fault = cause.fault (p₁.length + index)

/-- Whatever compiles by rules for single instructions composes. -/
theorem Rules.composes {r : Rules} {backend : String} {lines : Instruction → List String}
    {limits : Limits} {compile : Program → Except CompileFault CompiledProgram}
    (hout : ∀ p, r.Outcome backend lines limits p (compile p)) {p₁ p₂ : Program}
    (hregister : p₁.register = p₂.register) : Composes compile limits p₁ p₂ := by
  have hvalidate := Program.validate_append_iff hregister limits
  constructor
  case ok_iff =>
    intro c
    rw [(hout _).ok_iff, hvalidate]
    constructor
    · rintro ⟨⟨hvalid₁, hvalid₂, hlength⟩, hall, rfl⟩
      obtain ⟨hall₁, hall₂⟩ := List.forall_mem_append.mp hall
      refine ⟨hlength, _, _, ((hout p₁).ok_iff _).mpr ⟨hvalid₁, hall₁, rfl⟩,
        ((hout p₂).ok_iff _).mpr ⟨hvalid₂, hall₂, rfl⟩, ?_⟩
      exact congrArg (CompiledProgram.mk backend p₁.register) List.flatMap_append
    · rintro ⟨hlength, c₁, c₂, hc₁, hc₂, rfl⟩
      obtain ⟨hvalid₁, hall₁, rfl⟩ := ((hout p₁).ok_iff _).mp hc₁
      obtain ⟨hvalid₂, hall₂, rfl⟩ := ((hout p₂).ok_iff _).mp hc₂
      refine ⟨⟨hvalid₁, hvalid₂, hlength⟩, List.forall_mem_append.mpr ⟨hall₁, hall₂⟩, ?_⟩
      exact congrArg (CompiledProgram.mk backend p₁.register) List.flatMap_append.symm
  case error_left =>
    intro hvalid fault hfault
    obtain ⟨hvalid₁, -, -⟩ := hvalidate.mp hvalid
    obtain ⟨index, i, hreaches, hrefuses⟩ := ((hout p₁).error_iff_of_valid hvalid₁).mp hfault
    exact ((hout _).error_iff_of_valid hvalid).mpr
      ⟨index, i, hreaches.append p₂.instructions, hrefuses⟩
  case error_right =>
    intro hvalid c₁ hc₁ fault
    obtain ⟨-, hvalid₂, -⟩ := hvalidate.mp hvalid
    obtain ⟨-, hall, -⟩ := ((hout p₁).ok_iff c₁).mp hc₁
    rw [(hout _).error_iff_of_valid hvalid]
    constructor
    · rintro ⟨index, i, hreaches, hrefuses⟩
      obtain ⟨k, rfl, hreaches₂⟩ := hreaches.exists_add_of_append hall hrefuses.not_lowerable
      obtain ⟨cause, rfl, hcause⟩ := hrefuses.exists_cause
      exact ⟨cause, k, ((hout p₂).error_iff_of_valid hvalid₂).mpr ⟨k, i, hreaches₂, hcause k⟩, rfl⟩
    · rintro ⟨cause, k, hfault, rfl⟩
      obtain ⟨index, i, hreaches₂, hrefuses⟩ := ((hout p₂).error_iff_of_valid hvalid₂).mp hfault
      obtain ⟨rfl, hmoved⟩ := hrefuses.moved p₁.length
      exact ⟨_, i, (reaches_append_right_iff hall).mpr hreaches₂, hmoved⟩

/-- Compiling for either machine takes one program after another over the same register to
the lines of the one and then those of the other. It succeeds exactly if both do and the two
are not too long together; and once the first compiles, what stops the whole is what stops
the second, with the position moved. -/
theorem compile_append (p₁ p₂ : Program) (hregister : p₁.register = p₂.register) :
    (∀ q : Qmi, Composes q.compile q.limits p₁ p₂) ∧
    (∀ a : Annealer, Composes a.compile a.limits p₁ p₂) :=
  ⟨fun q => Rules.composes q.outcome_compile hregister,
    fun a => Rules.composes a.outcome_compile hregister⟩

/-- A coupler of a problem, and biases that follow: the second addresses a qubit that a
machine with four of them does not have. -/
def sampleParts : Program × Program :=
  (⟨"q", [⟨.builtin .coupler, [3, 1], [-0.5]⟩]⟩,
    ⟨"q", [⟨.builtin .bias, [0], [0.1]⟩, ⟨.free "Bias", [5], [0.1]⟩]⟩)

/-- The fault names position 1 of the biases and position 2 of the whole. -/
theorem compile_append_sample :
    sampleParts.1.register = sampleParts.2.register ∧
      (⟨⟨4⟩, ⟨3, 8⟩⟩ : Annealer).compile sampleParts.2 = .error (.qubitOutOfRange 1 5 4) ∧
      (⟨⟨4⟩, ⟨3, 8⟩⟩ : Annealer).compile (sampleParts.1.append sampleParts.2.instructions) =
        .error (.qubitOutOfRange 2 5 4) := by
  have hregister : sampleParts.1.register = sampleParts.2.register := rfl
  have hcomposes := (compile_append _ _ hregister).2 ⟨⟨4⟩, ⟨3, 8⟩⟩
  have hvalid : (sampleParts.1.append sampleParts.2.instructions).validate ⟨3, 8⟩ = .ok () := by
    decide
  have hfirst : (⟨⟨4⟩, ⟨3, 8⟩⟩ : Annealer).compile sampleParts.1 =
      .ok ⟨"annealer", "q", ["1 3 -0.5"]⟩ := by
    decide +kernel
  have hsecond : (⟨⟨4⟩, ⟨3, 8⟩⟩ : Annealer).compile sampleParts.2 =
      .error (.qubitOutOfRange 1 5 4) := by
    decide +kernel
  refine ⟨hregister, hsecond, ?_⟩
  exact (hcomposes.error_right hvalid _ hfirst _).mpr ⟨.outOfRange 5 4, 1, hsecond, rfl⟩

end QuantumCompiler
