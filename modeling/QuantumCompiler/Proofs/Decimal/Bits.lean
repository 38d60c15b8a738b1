import Mathlib
import QuantumCompiler.Decimal.Binary

/-!
# Doubles and their bit patterns

A double is told apart from every other double by its bit pattern: all that is
not a number shares one pattern. `Value` splits the pattern into a sign and a
rank and forgets nothing on the way, so a double can be rebuilt from its value.

* `bits_valueOf` — a value keeps the bit pattern it was read from;
* `toFloat_valueOf` — a double is the double of its value.

The fields of a pattern are read as numbers: the pattern `b` has the exponent
`b / 2 ^ 52 % 2 ^ 11` and the fraction `b % 2 ^ 52`.
-/

namespace QuantumCompiler.Decimal

open Float.Model
open Float.Model.UnpackedFloat (unpackExponent unpackMantissa)

theorem toNat_unpackMantissa (b : BitVec 64) :
    (@unpackMantissa Format.binary64 b).toNat = b.toNat % 2 ^ 52 := by
  simp [unpackMantissa, BitVec.extractLsb]

theorem toNat_unpackExponent (b : BitVec 64) :
    (@unpackExponent Format.binary64 b).toNat = b.toNat / 2 ^ 52 % 2 ^ 11 := by
  simp [unpackExponent, BitVec.extractLsb, Nat.shiftRight_eq_div_pow]

/-- Past infinity there is one bit pattern. -/
theorem toBits_of_infinityRank_lt {x : Float} (h : infinityRank < x.toBits.toNat % signBit) :
    x.toBits.toNat = infinityRank + 2 ^ 51 := by
  obtain ⟨bits, hvalid⟩ := x
  change infinityRank < bits.toNat % signBit at h
  change bits.toNat = infinityRank + 2 ^ 51
  have hlt : bits.toNat < 2 ^ 64 := bits.toBitVec.isLt
  have hnat : bits.toBitVec.toNat = bits.toNat := rfl
  simp only [infinityRank, fractionBits, signBit, Nat.pow_eq] at h
  have hones : @unpackExponent Format.binary64 bits.toBitVec = -1#11 := by
    apply BitVec.eq_of_toNat_eq
    rw [toNat_unpackExponent, hnat]
    change bits.toNat / 2 ^ 52 % 2 ^ 11 = 2047
    omega
  have hman : @unpackMantissa Format.binary64 bits.toBitVec ≠ 0#52 := by
    intro hzero
    have := congrArg BitVec.toNat hzero
    rw [toNat_unpackMantissa, hnat] at this
    change bits.toNat % 2 ^ 52 = 0 at this
    omega
  have hnan := congrArg BitVec.toNat (hvalid.eq_packedNaN hones hman)
  rw [hnat] at hnan
  rw [hnan]
  decide +kernel

/-- A value keeps the bit pattern it was read from. -/
theorem bits_valueOf (x : Float) : (valueOf x).bits = x.toBits.toNat := by
  have hlt : x.toBits.toNat < 2 ^ 64 := x.toBits.toBitVec.isLt
  have hsplit : (if decide (signBit ≤ x.toBits.toNat) = true then signBit else 0) +
      x.toBits.toNat % signBit = x.toBits.toNat := by
    by_cases hsign : signBit ≤ x.toBits.toNat
    · rw [if_pos (decide_eq_true hsign)]
      simp only [signBit, Nat.pow_eq] at hsign ⊢
      omega
    · rw [if_neg (by simpa using hsign)]
      simp only [signBit, Nat.pow_eq] at hsign ⊢
      omega
  unfold valueOf Value.ofBits
  dsimp only
  by_cases hfin : x.toBits.toNat % signBit < infinityRank
  · rw [if_pos hfin]
    exact hsplit
  · by_cases hinf : x.toBits.toNat % signBit = infinityRank
    · rw [if_neg hfin, if_pos hinf]
      rw [hinf] at hsplit
      exact hsplit
    · rw [if_neg hfin, if_neg hinf, toBits_of_infinityRank_lt (by omega)]
      rfl

/-- A double is the double of its value. -/
theorem toFloat_valueOf (x : Float) : (valueOf x).toFloat = x := by
  rw [Value.toFloat, bits_valueOf, Nat.toUInt64, UInt64.ofNat_toNat, Float.ofBits_toBits]

/-- The rank of a finite value is below that of infinity. -/
theorem lt_infinityRank_of_valueOf {x : Float} {negative : Bool} {rank : Nat}
    (h : valueOf x = .finite negative rank) : rank < infinityRank := by
  unfold valueOf Value.ofBits at h
  dsimp only at h
  split at h
  · rename_i hlt
    injection h with _ hrank
    rwa [← hrank]
  · split at h <;> exact absurd h (by simp)

end QuantumCompiler.Decimal
