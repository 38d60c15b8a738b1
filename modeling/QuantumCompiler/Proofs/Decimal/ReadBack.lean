import Mathlib.Tactic.Ring
import QuantumCompiler.Decimal.Layout
import QuantumCompiler.Proofs.Decimal.Bits
import QuantumCompiler.Proofs.Text.Numeral

/-!
# Written doubles read back

The text of a double in program text denotes that double and no other: the sign
of zero, the infinities and what is not a number included.

* `rank_exact` — the exact value of a rank reads back as that rank;
* `rank_shortest` — so does the shortest decimal, whichever digit it stops at;
* `readDecimal?_positional` — leaving out the exponent loses nothing;
* `readFloat?_plain` — a double in program text reads back.

Rounding enters at one point only: an exact value is not moved by it.
-/

namespace QuantumCompiler.Decimal

open QuantumCompiler.Text

-- ---------------------------------------------------------------------------
-- Exact values
-- ---------------------------------------------------------------------------

/-- A multiple is divided without rounding. -/
theorem roundDiv_mul {d : Nat} (hd : 0 < d) (q : Nat) : roundDiv (q * d) d = q := by
  rw [roundDiv, Nat.mul_div_cancel q hd, Nat.mul_mod_left, if_pos (by omega)]

/-- A rank is that of a subnormal double, or it has an exponent and a significand
with a leading bit. -/
theorem ofRank_cases (rank : Nat) :
    (rank < 2 ^ fractionBits ∧ Magnitude.ofRank rank = ⟨rank, 0⟩) ∨
      ∃ shift fraction, fraction < 2 ^ fractionBits ∧
        rank = shift * 2 ^ fractionBits + (2 ^ fractionBits + fraction) ∧
        Magnitude.ofRank rank = ⟨2 ^ fractionBits + fraction, shift⟩ := by
  have hdiv := Nat.div_add_mod rank (2 ^ fractionBits)
  have hmod : rank % 2 ^ fractionBits < 2 ^ fractionBits := Nat.mod_lt _ (Nat.two_pow_pos _)
  simp only [Magnitude.ofRank, Nat.pow_eq]
  cases hexp : rank / 2 ^ fractionBits with
  | zero =>
    left
    rw [hexp, Nat.mul_zero, Nat.zero_add] at hdiv
    rw [hdiv] at hmod ⊢
    exact ⟨hmod, if_pos rfl⟩
  | succ shift =>
    right
    refine ⟨shift, rank % 2 ^ fractionBits, hmod, ?_, if_neg (by omega)⟩
    rw [hexp] at hdiv
    conv_lhs => rw [← hdiv]
    ring

/-- Significand and shift of a rank, put side by side, are the rank. -/
theorem shift_add_mantissa (rank : Nat) :
    (Magnitude.ofRank rank).shift * 2 ^ fractionBits + (Magnitude.ofRank rank).mantissa = rank := by
  obtain ⟨-, h⟩ | ⟨shift, fraction, -, hrank, h⟩ := ofRank_cases rank
  · rw [h]
    simp
  · rw [h, hrank]

theorem mantissa_pos {rank : Nat} (hrank : rank ≠ 0) : 0 < (Magnitude.ofRank rank).mantissa := by
  obtain ⟨-, h⟩ | ⟨shift, fraction, -, -, h⟩ := ofRank_cases rank
  · rw [h]
    exact Nat.pos_of_ne_zero hrank
  · rw [h]
    exact Nat.add_pos_left (Nat.two_pow_pos fractionBits) fraction

theorem units_eq (m : Magnitude) : m.units = m.mantissa * 2 ^ m.shift := rfl

/-- The shift of a rank is found from its value: the significand has 53 bits, or
fewer under the shift zero. -/
theorem log2_units {rank : Nat} (hrank : rank ≠ 0) :
    (Magnitude.ofRank rank).units.log2 - fractionBits = (Magnitude.ofRank rank).shift := by
  obtain ⟨hlt, h⟩ | ⟨shift, fraction, hlt, -, h⟩ := ofRank_cases rank
  · have hlog := (Nat.log2_lt hrank).mpr hlt
    rw [h, units_eq, Nat.pow_zero, Nat.mul_one]
    exact Nat.sub_eq_zero_of_le hlog.le
  · have hpos := Nat.two_pow_pos fractionBits
    have hlog : ((2 ^ fractionBits + fraction) * 2 ^ shift).log2 = fractionBits + shift := by
      rw [Nat.log2_eq_iff (Nat.mul_pos (by omega) (Nat.two_pow_pos _)).ne']
      constructor
      · rw [Nat.pow_add]
        exact Nat.mul_le_mul_right _ (by omega)
      · rw [show fractionBits + shift + 1 = (fractionBits + 1) + shift by ring, Nat.pow_add]
        apply Nat.mul_lt_mul_of_pos_right _ (Nat.two_pow_pos _)
        rw [Nat.pow_succ]
        omega
    rw [h, units_eq, hlog, Nat.add_sub_cancel_left]

/-- A fraction that is exactly the value of a rank is not rounded. -/
theorem nearestRank_eq {rank num den : Nat} (hrank : rank ≠ 0) (hlt : rank < infinityRank)
    (hden : 0 < den) (h : num * 2 ^ unitBits = (Magnitude.ofRank rank).units * den) :
    nearestRank num den = rank := by
  have hcut : (Magnitude.ofRank rank).units * den =
      (Magnitude.ofRank rank).mantissa * (den * 2 ^ (Magnitude.ofRank rank).shift) := by
    rw [units_eq]
    ring
  have hpos : 0 < den * 2 ^ (Magnitude.ofRank rank).shift :=
    Nat.mul_pos hden (Nat.two_pow_pos _)
  simp only [nearestRank, Nat.pow_eq]
  rw [h, Nat.mul_div_cancel _ hden, log2_units hrank, hcut, roundDiv_mul hpos,
    shift_add_mantissa]
  omega

/-- The exact value of a rank reads back as that rank. -/
theorem rank_exact {rank : Nat} (hrank : rank ≠ 0) (hlt : rank < infinityRank) :
    (Magnitude.ofRank rank).exact.rank = rank := by
  have hpos := mantissa_pos hrank
  generalize hm : Magnitude.ofRank rank = m at hpos
  simp only [Magnitude.exact, Nat.pow_eq]
  by_cases hshift : unitBits ≤ m.shift
  · have hdigits : 0 < m.mantissa * 2 ^ (m.shift - unitBits) :=
      Nat.mul_pos hpos (Nat.two_pow_pos _)
    rw [if_pos hshift, Scaled.rank]
    simp only [Nat.pow_eq]
    rw [if_neg (by omega), if_neg (by omega), if_neg (by omega), if_pos (by omega)]
    apply nearestRank_eq hrank hlt Nat.one_pos
    rw [hm, units_eq, Int.toNat_zero, Nat.pow_zero, Nat.mul_one, Nat.mul_one,
      Nat.mul_assoc, ← Nat.pow_add, Nat.sub_add_cancel hshift]
  · obtain ⟨k, hk⟩ : ∃ k, unitBits = m.shift + k := ⟨unitBits - m.shift, by omega⟩
    have hkpos : 0 < k := by omega
    have hsub : unitBits - m.shift = k := by omega
    have hdigits : 0 < m.mantissa * 5 ^ k := Nat.mul_pos hpos (Nat.pow_pos (by decide))
    -- four bits for every two factors of five keep the exponent in range
    have hlog : 2 * k ≤ (m.mantissa * 5 ^ k).log2 := by
      rw [Nat.le_log2 (by omega)]
      calc 2 ^ (2 * k) = 4 ^ k := by rw [Nat.pow_mul]
        _ ≤ 5 ^ k := Nat.pow_le_pow_left (by decide) k
        _ ≤ m.mantissa * 5 ^ k := Nat.le_mul_of_pos_left _ hpos
    rw [if_neg hshift, hsub, Scaled.rank]
    simp only [Nat.pow_eq]
    rw [if_neg (by omega), if_neg (by omega), if_neg (by omega), if_neg (by omega)]
    apply nearestRank_eq hrank hlt (Nat.pow_pos (by decide))
    have hnat : (-(-(k : Int))).toNat = k := by omega
    have hten : 10 ^ k = 2 ^ k * 5 ^ k := by rw [← Nat.mul_pow]
    rw [hm, units_eq, hnat, hten, hk, Nat.pow_add]
    ring

-- ---------------------------------------------------------------------------
-- Shortest decimals
-- ---------------------------------------------------------------------------

/-- A candidate is only proposed if it reads back. -/
theorem rank_of_candidate? {tie : Tie} {rank : Nat} {e : Int} {d : Scaled}
    (h : candidate? tie rank e = some d) : d.rank = rank := by
  unfold candidate? at h
  dsimp only at h
  split at h
  · rename_i hlower
    rw [← Option.some.inj h]
    exact hlower.1
  · split at h
    · rename_i hupper
      rw [← Option.some.inj h]
      exact hupper
    · exact absurd h (by simp)

/-- The shortest decimal of a positive finite double reads back as that double. -/
theorem rank_shortest {tie : Tie} {rank : Nat} (hrank : rank ≠ 0) (hlt : rank < infinityRank) :
    (shortest tie rank).rank = rank := by
  unfold shortest
  dsimp only
  generalize hfound : (List.range 17).findSome? _ = found
  cases found with
  | none => exact rank_exact hrank hlt
  | some d =>
    obtain ⟨n, -, hn⟩ := List.exists_of_findSome?_eq_some hfound
    exact rank_of_candidate? hn

theorem rank_decimalOfRank {tie : Tie} {rank : Nat} (hlt : rank < infinityRank) :
    (decimalOfRank tie rank).rank = rank := by
  unfold decimalOfRank
  split
  · rename_i hzero
    rw [hzero]
    rfl
  · rename_i hrank
    exact rank_shortest hrank hlt

-- ---------------------------------------------------------------------------
-- Digits and points
-- ---------------------------------------------------------------------------

/-- Digits up to a point or the end are cut off as the whole part. -/
theorem takeWhile_digits {as : List Char} (rest : List Char) (has : ∀ c ∈ as, c.isDigit = true)
    (hrest : ∀ c, rest.head? = some c → c.isDigit = false) :
    (as ++ rest).takeWhile Char.isDigit = as ∧ (as ++ rest).dropWhile Char.isDigit = rest := by
  have hstop : rest.takeWhile Char.isDigit = [] ∧ rest.dropWhile Char.isDigit = rest := by
    cases rest with
    | nil => exact ⟨rfl, rfl⟩
    | cons c cs => simp [hrest c rfl]
  rw [List.takeWhile_append_of_pos has, List.dropWhile_append_of_pos has, hstop.1, hstop.2]
  exact ⟨List.append_nil as, rfl⟩

/-- Digits alone are a whole number. -/
theorem readDecimal?_whole {as : List Char} (hne : as ≠ []) (has : ∀ c ∈ as, c.isDigit = true) :
    readDecimal? as = some ⟨numeralValue as, 0⟩ := by
  have hcut := takeWhile_digits [] has (by simp)
  rw [List.append_nil] at hcut
  unfold readDecimal?
  dsimp only
  rw [hcut.1, hcut.2]
  simp [hne, readScale?]

/-- Digits around a point count together, and each one after it divides by ten. -/
theorem readDecimal?_point {as bs : List Char} (hne : as ++ bs ≠ [])
    (has : ∀ c ∈ as, c.isDigit = true) (hbs : ∀ c ∈ bs, c.isDigit = true) :
    readDecimal? (as ++ '.' :: bs) = some ⟨numeralValue (as ++ bs), -(bs.length : Int)⟩ := by
  have hwhole := takeWhile_digits ('.' :: bs) has (by simp)
  have hfraction := takeWhile_digits [] hbs (by simp)
  rw [List.append_nil] at hfraction
  unfold readDecimal?
  dsimp only
  rw [hwhole.1, hwhole.2]
  simp only [hfraction.1, hfraction.2]
  simp [hne, readScale?]

theorem isDigit_of_mem_zeros {k : Nat} {c : Char} (hc : c ∈ List.replicate k '0') :
    c.isDigit = true := by
  rw [List.eq_of_mem_replicate hc]
  rfl

/-- An exponent that is not negative can be multiplied out. -/
theorem rank_multiplied {n : Nat} {e : Int} (hnonneg : 0 ≤ e) (he : e ≤ 400) :
    (Scaled.mk (n * 10 ^ e.toNat) 0).rank = (Scaled.mk n e).rank := by
  unfold Scaled.rank
  dsimp only
  by_cases hn : n = 0
  · simp [hn]
  · have hpow : 0 < 10 ^ e.toNat := Nat.pow_pos (by decide)
    have hpos : n * 10 ^ e.toNat ≠ 0 := Nat.mul_ne_zero hn hpow.ne'
    rw [if_neg hpos, if_neg (by omega), if_neg (by omega), if_pos (by omega), if_neg hn,
      if_neg (by omega), if_neg (by omega), if_pos hnonneg]
    simp

/-- Zeros between the point and the digits put these in their places. -/
theorem readDecimal?_padded {n places : Nat} (hplaces : (numeral n).length ≤ places) :
    readDecimal? ('0' :: '.' :: (List.replicate (places - (numeral n).length) '0' ++ numeral n)) =
      some ⟨n, -(places : Int)⟩ := by
  have hzero : ∀ c ∈ ['0'], c.isDigit = true := by simp
  have hall : ∀ c ∈ List.replicate (places - (numeral n).length) '0' ++ numeral n,
      c.isDigit = true := by
    intro c hc
    rcases List.mem_append.mp hc with hc | hc
    · exact isDigit_of_mem_zeros hc
    · exact isDigit_of_mem_numeral hc
  have hvalue : numeralValue (['0'] ++
      (List.replicate (places - (numeral n).length) '0' ++ numeral n)) = n := by
    rw [← List.append_assoc, show ['0'] = List.replicate 1 '0' from rfl,
      List.replicate_append_replicate, numeralValue_zeros_append, numeralValue_numeral]
  have hlength : (List.replicate (places - (numeral n).length) '0' ++ numeral n).length = places := by
    rw [List.length_append, List.length_replicate]
    omega
  have hread := readDecimal?_point (by simp) hzero hall
  rw [hvalue, hlength] at hread
  exact hread

/-- Leaving out the exponent loses nothing: the digits and zeros denote what the
digits and the exponent denote. -/
theorem readDecimal?_positional (d : Scaled) (he : d.exponent ≤ 400) :
    ∃ d', readDecimal? (positional (numeral d.digits) d.exponent) = some d' ∧
      d'.rank = d.rank := by
  obtain ⟨n, e⟩ := d
  dsimp only at he ⊢
  have hne := numeral_ne_nil n
  have hdigits : ∀ c ∈ numeral n, c.isDigit = true := fun c => isDigit_of_mem_numeral
  unfold positional
  by_cases hnonneg : 0 ≤ e
  · -- zeros in the place of the exponent
    rw [if_pos hnonneg]
    refine ⟨_, readDecimal?_whole (by simp [hne]) ?_, ?_⟩
    · intro c hc
      rcases List.mem_append.mp hc with hc | hc
      · exact hdigits c hc
      · exact isDigit_of_mem_zeros hc
    · rw [numeralValue_append_zeros, numeralValue_numeral, Nat.mul_comm]
      exact rank_multiplied hnonneg he
  · obtain ⟨places, rfl⟩ : ∃ places : Nat, e = -(places : Int) := ⟨(-e).toNat, by omega⟩
    have htoNat : (-(-(places : Int))).toNat = places := by omega
    rw [if_neg hnonneg]
    dsimp only
    rw [htoNat]
    by_cases hinside : places < (numeral n).length
    · -- a point among the digits
      rw [if_pos hinside]
      refine ⟨_, readDecimal?_point ?_ ?_ ?_, ?_⟩
      · rw [List.take_append_drop]
        exact hne
      · exact fun c hc => hdigits c (List.mem_of_mem_take hc)
      · exact fun c hc => hdigits c (List.mem_of_mem_drop hc)
      · rw [List.take_append_drop, numeralValue_numeral, List.length_drop]
        congr 2
        omega
    · -- a point and zeros before the digits
      rw [if_neg hinside]
      exact ⟨_, readDecimal?_padded (Nat.le_of_not_lt hinside), rfl⟩

-- ---------------------------------------------------------------------------
-- Program text
-- ---------------------------------------------------------------------------

/-- A decimal of a positive finite double has a small exponent. -/
theorem exponent_le_of_rank {d : Scaled} (hpos : d.rank ≠ 0) (hlt : d.rank < infinityRank) :
    d.exponent ≤ 400 := by
  unfold Scaled.rank at hpos hlt
  by_contra hlarge
  by_cases hdigits : d.digits = 0
  · rw [if_pos hdigits] at hpos
    exact hpos rfl
  · rw [if_neg hdigits, if_pos (by omega)] at hlt
    exact absurd hlt (lt_irrefl _)

theorem exponent_decimalOfRank {tie : Tie} {rank : Nat} (hlt : rank < infinityRank) :
    (decimalOfRank tie rank).exponent ≤ 400 := by
  by_cases hzero : rank = 0
  · rw [decimalOfRank, if_pos hzero]
    decide
  · have hrank : (decimalOfRank tie rank).rank = rank := rank_decimalOfRank hlt
    exact exponent_le_of_rank (by rwa [hrank]) (by rwa [hrank])

theorem mem_positional {digits : List Char} {e : Int} {c : Char} (h : c ∈ positional digits e) :
    c ∈ digits ∨ c = '0' ∨ c = '.' := by
  unfold positional at h
  split at h
  · rcases List.mem_append.mp h with h | h
    · exact Or.inl h
    · exact Or.inr (Or.inl (List.eq_of_mem_replicate h))
  · dsimp only at h
    split at h
    · rcases List.mem_append.mp h with h | h
      · exact Or.inl (List.mem_of_mem_take h)
      · rcases List.mem_cons.mp h with h | h
        · exact Or.inr (Or.inr h)
        · exact Or.inl (List.mem_of_mem_drop h)
    · rcases List.mem_cons.mp h with h | h
      · exact Or.inr (Or.inl h)
      · rcases List.mem_cons.mp h with h | h
        · exact Or.inr (Or.inr h)
        · rcases List.mem_append.mp h with h | h
          · exact Or.inr (Or.inl (List.eq_of_mem_replicate h))
          · exact Or.inl h

/-- A finite magnitude is written with digits and a point. -/
theorem mem_plainMagnitude {rank : Nat} {c : Char} (h : c ∈ plainMagnitude rank) :
    c.isDigit = true ∨ c = '.' := by
  rcases mem_positional h with h | h | h
  · exact Or.inl (isDigit_of_mem_numeral h)
  · exact Or.inl (h ▸ rfl)
  · exact Or.inr h

/-- A literal of digits and points is neither a word nor signed. -/
theorem readValue?_unsigned {cs : List Char} (h : ∀ c ∈ cs, c.isDigit = true ∨ c = '.')
    (negative : Bool) :
    readMagnitude? negative cs = (readDecimal? cs).map (fun d => Value.ofRank negative d.rank) ∧
      readValue? cs = readMagnitude? false cs := by
  have hcode : ∀ c ∈ cs, c.toNat ≤ 57 ∧ c ≠ '-' ∧ c ≠ '+' := by
    intro c hc
    rcases h c hc with hd | rfl
    · have hrange : 48 ≤ c.toNat ∧ c.toNat ≤ 57 := Char.isDigit_iff_toNat.mp hd
      refine ⟨hrange.2, ?_, ?_⟩ <;> rintro rfl <;> exact absurd hrange.1 (by decide)
    · decide
  have hlower : cs.map Char.toLower = cs := by
    have hsame : ∀ c ∈ cs, c.toLower = id c := by
      intro c hc
      have hle := (hcode c hc).1
      unfold Char.toLower
      rw [dif_neg]
      · rfl
      · intro hupper
        have hge := UInt32.le_iff_toNat_le.mp hupper.1
        change 65 ≤ c.toNat at hge
        omega
    rw [List.map_congr_left hsame, List.map_id]
  -- every word has the letter n, whose code is beyond those of the digits
  have hword : ∀ w : List Char, 'n' ∈ w → (cs == w) = false := by
    intro w hw
    rw [beq_eq_false_iff_ne]
    rintro rfl
    exact absurd (hcode 'n' hw).1 (by decide)
  constructor
  · unfold readMagnitude?
    dsimp only
    rw [hlower, hword _ (by decide), hword _ (by decide), hword _ (by decide)]
    rfl
  · unfold readValue?
    split
    · exact absurd rfl (hcode '-' List.mem_cons_self).2.1
    · exact absurd rfl (hcode '+' List.mem_cons_self).2.2
    · rfl

/-- A finite magnitude under a sign reads back. -/
theorem readMagnitude?_plainMagnitude {rank : Nat} (hlt : rank < infinityRank) (negative : Bool) :
    readMagnitude? negative (plainMagnitude rank) = some (.finite negative rank) := by
  obtain ⟨d, hread, hrank⟩ :=
    readDecimal?_positional (decimalOfRank .up rank) (exponent_decimalOfRank hlt)
  rw [(readValue?_unsigned (fun c => mem_plainMagnitude) negative).1]
  unfold plainMagnitude
  dsimp only
  rw [hread, Option.map_some, hrank, rank_decimalOfRank hlt, Value.ofRank, if_pos hlt]

/-- The text of a double denotes its value. -/
theorem readValue?_plain (x : Float) : readValue? (plain x) = some (valueOf x) := by
  unfold plain
  cases hx : valueOf x with
  | nan => decide
  | infinite negative => cases negative <;> decide
  | finite negative rank =>
    have hlt := lt_infinityRank_of_valueOf hx
    cases negative with
    | true => exact readMagnitude?_plainMagnitude hlt true
    | false =>
      change readValue? (plainMagnitude rank) = _
      rw [(readValue?_unsigned (fun c => mem_plainMagnitude) false).2]
      exact readMagnitude?_plainMagnitude hlt false

/-- The text of a double reads back as that double. -/
theorem readFloat?_plain (x : Float) : readFloat? (plain x) = some x := by
  rw [readFloat?, readValue?_plain, Option.map_some, toFloat_valueOf]

theorem mem_signText {negative : Bool} {c : Char} (h : c ∈ signText negative) : c = '-' := by
  cases negative with
  | true => simpa [signText] using h
  | false => simp [signText] at h

/-- The characters of a double in program text: digits, a point, a minus sign and
the letters of the words. -/
theorem mem_plain {x : Float} {c : Char} (h : c ∈ plain x) :
    c.isDigit = true ∨ c ∈ ['.', '-', 'i', 'n', 'f', 'N', 'a'] := by
  have hnan : ['N', 'a', 'N'] ⊆ ['.', '-', 'i', 'n', 'f', 'N', 'a'] := by simp
  have hinf : ['i', 'n', 'f'] ⊆ ['.', '-', 'i', 'n', 'f', 'N', 'a'] := by simp
  unfold plain at h
  cases hx : valueOf x with
  | nan =>
    rw [hx] at h
    exact Or.inr (hnan h)
  | infinite negative =>
    rw [hx] at h
    right
    rcases List.mem_append.mp h with h | h
    · rw [mem_signText h]
      decide
    · exact hinf h
  | finite negative rank =>
    rw [hx] at h
    rcases List.mem_append.mp h with h | h
    · right
      rw [mem_signText h]
      decide
    · rcases mem_plainMagnitude h with h | rfl
      · exact Or.inl h
      · exact Or.inr (by decide)

theorem plain_ne_nil (x : Float) : plain x ≠ [] := by
  intro hnil
  have h := readValue?_plain x
  have hnone : readValue? [] = none := rfl
  rw [hnil, hnone] at h
  exact absurd h (by simp)

end QuantumCompiler.Decimal
