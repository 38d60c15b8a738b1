import QuantumCompiler.Instruction.Basic
import QuantumCompiler.Proofs.Traversal

/-!
# Construction of built-in instructions

Construction accepts an instruction exactly if its operands and parameters are
those that its kind demands.

* `checkOperands_eq_ok_iff` — the right number of operands, all distinct;
* `Kind.create_eq_ok_iff` — what `create` accepts and what it returns;
* `Kind.ofName?_eq_some_iff`, `Kind.name_injective` — a name belongs to one kind.
-/

namespace QuantumCompiler

-- ---------------------------------------------------------------------------
-- Checks
-- ---------------------------------------------------------------------------

theorem firstRepeat_eq_none_iff {seen bits : List Nat} :
    firstRepeat seen bits = none ↔ bits.Nodup ∧ ∀ b ∈ bits, b ∉ seen := by
  induction bits generalizing seen with
  | nil => simp [firstRepeat]
  | cons b bits ih =>
    rw [firstRepeat]
    by_cases hb : b ∈ seen
    · rw [if_pos hb]
      constructor
      · intro h
        cases h
      · intro h
        exact absurd hb (h.2 b List.mem_cons_self)
    · rw [if_neg hb, ih, List.nodup_cons]
      constructor
      · rintro ⟨hnodup, hfresh⟩
        refine ⟨⟨fun hmem => hfresh b hmem List.mem_cons_self, hnodup⟩, ?_⟩
        intro d hd
        rcases List.mem_cons.mp hd with rfl | hd
        · exact hb
        · exact fun hseen => hfresh d hd (List.mem_cons_of_mem b hseen)
      · rintro ⟨⟨hnot, hnodup⟩, hfresh⟩
        refine ⟨hnodup, ?_⟩
        intro d hd hmem
        rcases List.mem_cons.mp hmem with rfl | hmem
        · exact hnot hd
        · exact hfresh d (List.mem_cons_of_mem b hd) hmem

theorem checkOperands_eq_ok_iff {name : String} {arity : Nat} {bits : List Nat} :
    checkOperands name arity bits = .ok () ↔ bits.length = arity ∧ bits.Nodup := by
  unfold checkOperands
  by_cases hlen : bits.length = arity
  · rw [if_neg (by simpa using hlen)]
    have hnone := @firstRepeat_eq_none_iff [] bits
    cases hrepeat : firstRepeat [] bits with
    | none => simpa [hlen, hrepeat] using hnone
    | some bit => simpa [hlen, hrepeat] using hnone
  · rw [if_pos hlen]
    simp [hlen]

theorem checkParams_eq_ok_iff {name : String} {expected : Nat} {params : List Float} :
    checkParams name expected params = .ok () ↔ params.length = expected := by
  unfold checkParams
  by_cases hlen : params.length = expected
  · simp [hlen]
  · simp [hlen]

-- ---------------------------------------------------------------------------
-- Construction
-- ---------------------------------------------------------------------------

namespace Kind

theorem withParams_eq_ok_iff {kind : Kind} {bits : List Nat} {params : List Float}
    {i : Instruction} :
    kind.withParams bits params = .ok i ↔
      bits.length = kind.arity ∧ bits.Nodup ∧ params.length = kind.numParams ∧
        i = ⟨.builtin kind, bits, params⟩ := by
  unfold withParams
  rw [bind_eq_ok_iff]
  constructor
  · rintro ⟨⟨⟩, hoperands, h⟩
    obtain ⟨⟨⟩, hparams, h⟩ := bind_eq_ok_iff.mp h
    obtain ⟨hlen, hnodup⟩ := checkOperands_eq_ok_iff.mp hoperands
    exact ⟨hlen, hnodup, checkParams_eq_ok_iff.mp hparams, (Except.ok.inj h).symm⟩
  · rintro ⟨hlen, hnodup, hparams, rfl⟩
    exact ⟨(), checkOperands_eq_ok_iff.mpr ⟨hlen, hnodup⟩,
      bind_eq_ok_iff.mpr ⟨(), checkParams_eq_ok_iff.mpr hparams, rfl⟩⟩

/-- What `create` accepts and returns: no parameters stand for zeros. -/
theorem create_eq_ok_iff {kind : Kind} {bits : List Nat} {params : List Float} {i : Instruction} :
    kind.create bits params = .ok i ↔
      bits.length = kind.arity ∧ bits.Nodup ∧
        ((params = [] ∧ i = ⟨.builtin kind, bits, kind.defaultParams⟩) ∨
          (params ≠ [] ∧ params.length = kind.numParams ∧ i = ⟨.builtin kind, bits, params⟩)) := by
  unfold create
  by_cases hparams : params = []
  · rw [if_pos (by simp [hparams]), new, withParams_eq_ok_iff]
    simp [hparams, defaultParams]
  · rw [if_neg (by simp [hparams]), withParams_eq_ok_iff]
    simp [hparams]

theorem ofName?_name (kind : Kind) : ofName? kind.name = some kind := by
  cases kind <;> rfl

theorem ofName?_eq_some_iff {name : String} {kind : Kind} :
    ofName? name = some kind ↔ kind.name = name := by
  constructor
  · intro h
    simpa using List.find?_some h
  · rintro rfl
    exact ofName?_name kind

theorem name_injective {k k' : Kind} (h : k.name = k'.name) : k = k' := by
  have hk := ofName?_name k
  rw [h, ofName?_name] at hk
  exact (Option.some.inj hk).symm

end Kind

end QuantumCompiler
