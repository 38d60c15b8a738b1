import Mathlib.Order.Bounds.Basic
import QuantumCompiler.Proofs.Instruction

/-!
# What construction reports

Operands and parameters are checked in a fixed order. First the operands are counted. Then they
are read from left to right, and the first that stands further left as well is reported. The
parameters are counted last, and only if some are given.

* `repeats` — the positions of operands that stand further left as well;
* `firstRepeat_reverse_eq_some_iff` — the search, from any position on;
* `OperandFault`, `checkOperands_eq_error_iff` — what is wrong with a list of operands;
* `Kind.create_eq_error_iff` — what is wrong with operands and parameters;
* `construction_exact` — all that the checks and the construction accept, return and report.
-/

namespace QuantumCompiler

-- ---------------------------------------------------------------------------
-- Repeated operands
-- ---------------------------------------------------------------------------

/-- The positions whose entry also stands at an earlier position. -/
def repeats (bits : List Nat) : Set Nat :=
  {k | ∃ b, bits[k]? = some b ∧ ∃ j < k, bits[j]? = some b}

variable {bits before rest : List Nat} {b c k : Nat}

theorem lt_length_of_mem_repeats (h : k ∈ repeats bits) : k < bits.length := by
  obtain ⟨b, hb, -⟩ := h
  exact (List.getElem?_eq_some_iff.mp hb).1

/-- The entry after `before` is a repeat exactly if it is in `before`. -/
theorem length_mem_repeats_iff : before.length ∈ repeats (before ++ c :: rest) ↔ c ∈ before := by
  have hc : (before ++ c :: rest)[before.length]? = some c := by simp
  rw [List.mem_iff_getElem?]
  constructor
  · rintro ⟨b, hb, j, hj, hbj⟩
    obtain rfl : c = b := Option.some.inj (hc.symm.trans hb)
    exact ⟨j, by rwa [List.getElem?_append_left hj] at hbj⟩
  · rintro ⟨j, hj⟩
    have hlt : j < before.length := (List.getElem?_eq_some_iff.mp hj).1
    exact ⟨c, hc, j, hlt, by rwa [List.getElem?_append_left hlt]⟩

/-- The search goes on with the part of a list that it has not read, and knows of the part that
it has read in reverse. It finds the entry at the least position in the unread part whose entry
stands at an earlier position, be that in the read part or not. -/
theorem firstRepeat_reverse_eq_some_iff :
    firstRepeat before.reverse rest = some b ↔
      ∃ k, IsLeast (repeats (before ++ rest) ∩ Set.Ici before.length) k ∧
        (before ++ rest)[k]? = some b := by
  induction rest generalizing before with
  | nil =>
    simp only [firstRepeat, reduceCtorEq, false_iff]
    rintro ⟨k, ⟨⟨hk, hle⟩, -⟩, -⟩
    have hlt := lt_length_of_mem_repeats hk
    rw [List.append_nil] at hlt
    exact absurd hlt (Nat.not_lt.mpr hle)
  | cons c rest ih =>
    simp only [firstRepeat, List.mem_reverse]
    by_cases hc : c ∈ before
    · have hleast : IsLeast (repeats (before ++ c :: rest) ∩ Set.Ici before.length)
          before.length :=
        ⟨⟨length_mem_repeats_iff.mpr hc, Set.self_mem_Ici⟩, fun k hk => hk.2⟩
      rw [if_pos hc]
      constructor
      · intro h
        exact ⟨before.length, hleast, by simpa using h⟩
      · rintro ⟨k, hk, hb⟩
        rw [hk.unique hleast] at hb
        simpa using hb
    · -- the position just read is no repeat, so it can be left out
      have hread : repeats (before ++ c :: rest) ∩ Set.Ici (before ++ [c]).length =
          repeats (before ++ c :: rest) ∩ Set.Ici before.length := by
        ext k
        refine and_congr_right fun hk => ?_
        have hne : k ≠ before.length := by
          rintro rfl
          exact hc (length_mem_repeats_iff.mp hk)
        simp only [Set.mem_Ici, List.length_append, List.length_singleton]
        omega
      have hseen : c :: before.reverse = (before ++ [c]).reverse := by simp
      rw [if_neg hc, hseen, ih, List.append_assoc, List.singleton_append, hread]

theorem firstRepeat_nil_eq_some_iff :
    firstRepeat [] bits = some b ↔ ∃ k, IsLeast (repeats bits) k ∧ bits[k]? = some b := by
  have hall : Set.Ici 0 = (Set.univ : Set Nat) :=
    Set.eq_univ_of_forall Nat.zero_le
  have h := @firstRepeat_reverse_eq_some_iff [] bits b
  rwa [List.reverse_nil, List.nil_append, List.length_nil, hall, Set.inter_univ] at h

-- ---------------------------------------------------------------------------
-- Faults
-- ---------------------------------------------------------------------------

/-- What is wrong with a list of operands: their number, whatever they are, or the first of
them that stands at an earlier position as well. -/
inductive OperandFault (name : String) (arity : Nat) (bits : List Nat) : InstructionFault → Prop
  | count (hlen : bits.length ≠ arity) :
      OperandFault name arity bits (.invalidArity name arity bits.length)
  | repeated {k b : Nat} (hlen : bits.length = arity) (hleast : IsLeast (repeats bits) k)
      (hb : bits[k]? = some b) :
      OperandFault name arity bits (.duplicateOperand name b)

variable {name : String} {arity : Nat} {params : List Float} {fault : InstructionFault}

theorem checkOperands_of_operandFault (h : OperandFault name arity bits fault) :
    checkOperands name arity bits = .error fault := by
  cases h with
  | count hlen => rw [checkOperands, if_pos hlen]
  | @repeated k b hlen hleast hb =>
    have hfirst : firstRepeat [] bits = some b :=
      firstRepeat_nil_eq_some_iff.mpr ⟨k, hleast, hb⟩
    rw [checkOperands, if_neg (not_not.mpr hlen), hfirst]

theorem checkOperands_eq_error_iff :
    checkOperands name arity bits = .error fault ↔ OperandFault name arity bits fault := by
  refine ⟨fun h => ?_, checkOperands_of_operandFault⟩
  by_cases hlen : bits.length = arity
  · rw [checkOperands, if_neg (not_not.mpr hlen)] at h
    cases hfirst : firstRepeat [] bits with
    | none =>
      rw [hfirst] at h
      cases h
    | some b =>
      rw [hfirst] at h
      obtain ⟨k, hleast, hb⟩ := firstRepeat_nil_eq_some_iff.mp hfirst
      cases h
      exact .repeated hlen hleast hb
  · rw [checkOperands, if_pos hlen] at h
    cases h
    exact .count hlen

theorem checkParams_eq_error_iff {expected : Nat} :
    checkParams name expected params = .error fault ↔
      params.length ≠ expected ∧ fault = .invalidParameters name expected params.length := by
  unfold checkParams
  by_cases hlen : params.length = expected
  · simp [hlen]
  · simp [hlen, eq_comm]

namespace Kind

variable {kind : Kind}

/-- The parameters of an instruction that is created: those given, or the default ones if none
are. -/
def paramsFrom (kind : Kind) (params : List Float) : List Float :=
  if params.isEmpty then kind.defaultParams else params

theorem create_eq_withParams (kind : Kind) (bits : List Nat) (params : List Float) :
    kind.create bits params = kind.withParams bits (kind.paramsFrom params) := by
  unfold create new paramsFrom
  split
  · rfl
  · rfl

/-- An empty list of parameters is filled up, and no other. -/
theorem length_paramsFrom_eq_iff :
    (kind.paramsFrom params).length = kind.numParams ↔
      params = [] ∨ params.length = kind.numParams := by
  cases params with
  | nil => simp [paramsFrom, defaultParams]
  | cons p ps => simp [paramsFrom]

theorem withParams_eq_error_iff :
    kind.withParams bits params = .error fault ↔
      OperandFault kind.name kind.arity bits fault ∨
        bits.length = kind.arity ∧ bits.Nodup ∧ params.length ≠ kind.numParams ∧
          fault = .invalidParameters kind.name kind.numParams params.length := by
  unfold withParams
  rw [bind_eq_error_iff, checkOperands_eq_error_iff]
  refine or_congr_right ?_
  constructor
  · rintro ⟨⟨⟩, hoperands, h⟩
    obtain ⟨hlen, hnodup⟩ := checkOperands_eq_ok_iff.mp hoperands
    obtain hparams | ⟨⟨⟩, -, h⟩ := bind_eq_error_iff.mp h
    · exact ⟨hlen, hnodup, checkParams_eq_error_iff.mp hparams⟩
    · cases h
  · rintro ⟨hlen, hnodup, hparams⟩
    exact ⟨(), checkOperands_eq_ok_iff.mpr ⟨hlen, hnodup⟩,
      bind_eq_error_iff.mpr (Or.inl (checkParams_eq_error_iff.mpr hparams))⟩

/-- Parameters are looked at after the operands, and no parameters are never wrong. -/
theorem create_eq_error_iff :
    kind.create bits params = .error fault ↔
      OperandFault kind.name kind.arity bits fault ∨
        bits.length = kind.arity ∧ bits.Nodup ∧ params ≠ [] ∧ params.length ≠ kind.numParams ∧
          fault = .invalidParameters kind.name kind.numParams params.length := by
  rw [create_eq_withParams, withParams_eq_error_iff, Ne, length_paramsFrom_eq_iff, not_or,
    and_assoc]
  cases params with
  | nil => simp
  | cons p ps => simp [paramsFrom]

end Kind

/-- **Operands and parameters are checked exactly and in order.** A list of operands passes
exactly if it has as many entries as it should and no two are equal. A wrong number is reported
with both counts, whatever the entries are; otherwise the fault holds the entry at the least
position whose value stands at an earlier one. A kind then creates an instruction exactly if
the operands pass and the parameters are as many as it demands, or none: the instruction has
the operands in their order, and the parameters that were given, or zeros if there were none.
The number of parameters is reported only of operands that pass. -/
theorem construction_exact (name : String) (arity : Nat) (kind : Kind) (bits : List Nat)
    (params : List Float) :
    (checkOperands name arity bits = .ok () ↔ bits.length = arity ∧ bits.Nodup) ∧
    (∀ fault, checkOperands name arity bits = .error fault ↔
      OperandFault name arity bits fault) ∧
    (∀ i, kind.create bits params = .ok i ↔
      bits.length = kind.arity ∧ bits.Nodup ∧ (params = [] ∨ params.length = kind.numParams) ∧
        i = ⟨.builtin kind, bits, kind.paramsFrom params⟩) ∧
    (∀ fault, kind.create bits params = .error fault ↔
      OperandFault kind.name kind.arity bits fault ∨
        bits.length = kind.arity ∧ bits.Nodup ∧ params ≠ [] ∧ params.length ≠ kind.numParams ∧
          fault = .invalidParameters kind.name kind.numParams params.length) := by
  refine ⟨checkOperands_eq_ok_iff, fun _ => checkOperands_eq_error_iff, ?_,
    fun _ => Kind.create_eq_error_iff⟩
  intro i
  rw [Kind.create_eq_withParams, Kind.withParams_eq_ok_iff, Kind.length_paramsFrom_eq_iff]

-- both 4 and 7 stand twice; the second 7 comes before the second 4
example : checkOperands "Cycle" 5 [4, 7, 2, 7, 4] = .error (.duplicateOperand "Cycle" 7) := by
  rfl

end QuantumCompiler
