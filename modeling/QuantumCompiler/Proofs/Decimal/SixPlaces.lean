import QuantumCompiler.Proofs.Decimal.Exact
import QuantumCompiler.Proofs.Decimal.ReadBack

/-!
# What six decimal places tell

A double that is written with six decimal places is rounded, so it cannot be read back. What
can be read back is its rounding (`Rounded`): a sign and a number of millionths, or one of the
words for what is not finite. The sign is kept where the digits are all zero.

* `RoundsTo` — rounding to the nearest number of millionths, of two equally near ones to the
  even one;
* `roundsTo_iff` — there is one rounding, which `rounded` computes;
* `Rounded.read?_sixPlaces` — the text of a double reads back as its rounding.
-/

namespace QuantumCompiler.Decimal

open QuantumCompiler.Text

-- ---------------------------------------------------------------------------
-- Rounding
-- ---------------------------------------------------------------------------

/-- What a text with six decimal places tells. -/
inductive Rounded where
  | nan
  | infinite (negative : Bool)
  | millionths (negative : Bool) (count : Nat)
  deriving DecidableEq, Repr

/-- The rational number that a number of millionths is. -/
def Rounded.number : Rounded → ℚ
  | .millionths negative count => (if negative then -1 else 1) * (count / 10 ^ 6)
  | _ => 0

/-- The rounding of a double. What is not finite is told apart, and a finite double keeps its
sign and is at most half a millionth away; where it is just that, the number is even. -/
inductive RoundsTo (x : Float) : Rounded → Prop
  | nan (hx : valueOf x = .nan) : RoundsTo x .nan
  | infinite {negative : Bool} (hx : valueOf x = .infinite negative) :
      RoundsTo x (.infinite negative)
  | finite {negative : Bool} {rank count : Nat} (hx : valueOf x = .finite negative rank)
      (hnear : |exactNumber x - (Rounded.millionths negative count).number| ≤ 5 / 10 ^ 7)
      (heven : |exactNumber x - (Rounded.millionths negative count).number| = 5 / 10 ^ 7 →
        count % 2 = 0) :
      RoundsTo x (.millionths negative count)

/-- The rounding of a double, computed. -/
def rounded (x : Float) : Rounded :=
  match valueOf x with
  | .nan => .nan
  | .infinite negative => .infinite negative
  | .finite negative rank =>
    .millionths negative
      (roundDiv ((Magnitude.ofRank rank).units * Nat.pow 10 6) (Nat.pow 2 unitBits))

/-- Rounding a quotient moves it by a half at most, and by a half only to an even number. -/
theorem roundDiv_bounds (num : Nat) {den : Nat} (hden : 0 < den) :
    2 * (roundDiv num den * den) ≤ 2 * num + den ∧ 2 * num ≤ 2 * (roundDiv num den * den) + den ∧
      (2 * (roundDiv num den * den) = 2 * num + den ∨ 2 * num = 2 * (roundDiv num den * den) + den →
        roundDiv num den % 2 = 0) := by
  have hsplit : num / den * den + num % den = num := Nat.div_add_mod' num den
  have hlt : num % den < den := Nat.mod_lt num hden
  have hsucc : (num / den + 1) * den = num / den * den + den := Nat.succ_mul _ _
  unfold roundDiv
  dsimp only
  split_ifs with hbelow habove
  · omega
  · rw [hsucc]
    omega
  · -- the quotient lies in the middle, so the parity of the lower neighbour decides
    rcases Nat.mod_two_eq_zero_or_one (num / den) with hparity | hparity
    · rw [hparity, Nat.add_zero]
      omega
    · rw [hparity, hsucc]
      omega

/-- The integer nearest to a number; of two equally near ones, the even one. -/
def NearestEven (y : ℚ) (n : Nat) : Prop :=
  |y - n| ≤ 1 / 2 ∧ (|y - n| = 1 / 2 → n % 2 = 0)

theorem nearestEven_roundDiv (num : Nat) {den : Nat} (hden : 0 < den) :
    NearestEven (num / den) (roundDiv num den) := by
  obtain ⟨hlower, hupper, htie⟩ := roundDiv_bounds num hden
  have hpos : (0 : ℚ) < den := by exact_mod_cast hden
  generalize roundDiv num den = n at hlower hupper htie ⊢
  have hdiff : (num / den : ℚ) - n = (num - n * den) / den := by
    field_simp
  have hlowerQ : 2 * ((n : ℚ) * den) ≤ 2 * num + den := by exact_mod_cast hlower
  have hupperQ : 2 * (num : ℚ) ≤ 2 * (n * den) + den := by exact_mod_cast hupper
  rw [NearestEven, hdiff, abs_div, abs_of_pos hpos, div_le_iff₀ hpos, div_eq_iff hpos.ne']
  constructor
  · rw [abs_le]
    constructor <;> linarith
  · intro hhalf
    apply htie
    rcases (abs_eq (by positivity)).mp hhalf with h | h
    · right
      have hcast : 2 * (num : ℚ) = 2 * (n * den) + den := by linarith
      exact_mod_cast hcast
    · left
      have hcast : 2 * ((n : ℚ) * den) = 2 * num + den := by linarith
      exact_mod_cast hcast

/-- Two neighbours that are equally near are not both even. -/
theorem NearestEven.unique {y : ℚ} {n n' : Nat} (h : NearestEven y n) (h' : NearestEven y n') :
    n = n' := by
  have hbetween : ∀ {k l : Nat}, NearestEven y k → NearestEven y l → ¬ k < l := by
    rintro k l ⟨hk, hkeven⟩ ⟨hl, hleven⟩ hlt
    obtain ⟨-, hkupper⟩ := abs_le.mp hk
    obtain ⟨hllower, -⟩ := abs_le.mp hl
    have hgap : (l : ℚ) ≤ k + 1 := by linarith
    have hsucc : l = k + 1 := by
      have hle : l ≤ k + 1 := by exact_mod_cast hgap
      omega
    subst hsucc
    push_cast at hllower hleven
    have hmiddle : y = k + 1 / 2 := by linarith
    have hevenk : k % 2 = 0 := hkeven (by rw [hmiddle]; norm_num)
    have hevenl : (k + 1) % 2 = 0 := hleven (by rw [hmiddle]; norm_num [abs_of_nonpos])
    omega
  have hnot := hbetween h h'
  have hnot' := hbetween h' h
  omega

/-- Sign and unit do not matter for how far off a number of millionths is. -/
theorem nearestEven_iff (negative : Bool) (y : ℚ) (count : Nat) :
    NearestEven (y * 10 ^ 6) count ↔
      |(if negative then -1 else 1) * y - (Rounded.millionths negative count).number| ≤ 5 / 10 ^ 7 ∧
        (|(if negative then -1 else 1) * y - (Rounded.millionths negative count).number| =
          5 / 10 ^ 7 → count % 2 = 0) := by
  have hsign : |(if negative then -1 else 1 : ℚ)| = 1 := by
    cases negative <;> simp
  have hunit : y - count / 10 ^ 6 = (y * 10 ^ 6 - count) / 10 ^ 6 := by
    field_simp
  have hoff : |(if negative then -1 else 1) * y - (Rounded.millionths negative count).number| =
      |y * 10 ^ 6 - count| / 10 ^ 6 := by
    rw [Rounded.number, ← mul_sub, abs_mul, hsign, one_mul, hunit, abs_div,
      abs_of_pos (by positivity : (0 : ℚ) < 10 ^ 6)]
  have hhalf : (5 / 10 ^ 7 : ℚ) = 1 / 2 / 10 ^ 6 := by norm_num
  rw [hoff, hhalf, div_le_div_iff_of_pos_right (by positivity), div_left_inj' (by positivity),
    NearestEven]

theorem roundsTo_millionths_iff {x : Float} {negative : Bool} {rank : Nat}
    (hx : valueOf x = .finite negative rank) {count : Nat} :
    RoundsTo x (.millionths negative count) ↔
      NearestEven ((Magnitude.ofRank rank).units / (Nat.pow 2 unitBits : Nat) * 10 ^ 6) count := by
  rw [nearestEven_iff negative, ← exactNumber_of_finite hx]
  constructor
  · intro h
    cases h with
    | finite _ hnear heven => exact ⟨hnear, heven⟩
  · rintro ⟨hnear, heven⟩
    exact .finite hx hnear heven

theorem roundsTo_rounded (x : Float) : RoundsTo x (rounded x) := by
  unfold rounded
  cases hx : valueOf x with
  | nan => exact .nan hx
  | infinite negative => exact .infinite hx
  | finite negative rank =>
    have hden : 0 < Nat.pow 2 unitBits := by
      rw [Nat.pow_eq]
      positivity
    have hmillion : ((Nat.pow 10 6 : Nat) : ℚ) = 10 ^ 6 := by
      rw [Nat.pow_eq]
      norm_num
    have hnearest := nearestEven_roundDiv ((Magnitude.ofRank rank).units * Nat.pow 10 6) hden
    rw [Nat.cast_mul, hmillion, mul_div_right_comm] at hnearest
    exact (roundsTo_millionths_iff hx).mpr hnearest

/-- A double has one rounding. -/
theorem roundsTo_iff {x : Float} {r : Rounded} : RoundsTo x r ↔ r = rounded x := by
  constructor
  · intro h
    have h' := roundsTo_rounded x
    unfold rounded at h' ⊢
    cases h with
    | nan hx => rw [hx]
    | infinite hx => rw [hx]
    | @finite negative rank count hx hnear heven =>
      rw [hx] at h' ⊢
      have hcount := (roundsTo_millionths_iff hx).mp (.finite hx hnear heven)
      rw [hcount.unique ((roundsTo_millionths_iff hx).mp h')]
  · rintro rfl
    exact roundsTo_rounded x

-- ---------------------------------------------------------------------------
-- Reading
-- ---------------------------------------------------------------------------

/-- The rounding in a text without a sign: a word, or whole digits, a point and six digits. -/
def Rounded.readUnsigned? (negative : Bool) (cs : List Char) : Option Rounded :=
  if cs = ['i', 'n', 'f'] then some (.infinite negative)
  else
    match cs.splitOn '.' with
    | [whole, fraction] =>
      if isNumeral whole && isNumeral fraction && fraction.length == 6 then
        some (.millionths negative (numeralValue whole * 10 ^ 6 + numeralValue fraction))
      else none
    | _ => none

/-- The rounding in a text. -/
def Rounded.read? : List Char → Option Rounded
  | ['N', 'a', 'N'] => some .nan
  | '-' :: cs => readUnsigned? true cs
  | cs => readUnsigned? false cs

example :
    Rounded.read? ['-', '0', '.', '0', '0', '0', '0', '1', '2'] = some (.millionths true 12) := by
  decide

/-- Six digits of a number below a million. -/
def sixDigits (n : Nat) : List Char :=
  List.replicate (6 - (numeral n).length) '0' ++ numeral n

theorem length_sixDigits {n : Nat} (hn : n < 10 ^ 6) : (sixDigits n).length = 6 := by
  have hle : (numeral n).length ≤ 6 := Nat.toDigits_length 10 n 6 (by decide) hn
  rw [sixDigits, List.length_append, List.length_replicate]
  omega

theorem isDigit_of_mem_sixDigits {n : Nat} {c : Char} (h : c ∈ sixDigits n) : c.isDigit = true := by
  rcases List.mem_append.mp h with h | h
  · rw [List.eq_of_mem_replicate h]
    decide
  · exact isDigit_of_mem_numeral h

theorem isNumeral_sixDigits (n : Nat) : isNumeral (sixDigits n) = true := by
  refine isNumeral_iff.mpr ⟨?_, fun _ => isDigit_of_mem_sixDigits⟩
  exact List.append_ne_nil_of_right_ne_nil _ (numeral_ne_nil n)

theorem numeralValue_sixDigits (n : Nat) : numeralValue (sixDigits n) = n := by
  rw [sixDigits, numeralValue_zeros_append, numeralValue_numeral]

/-- The millionths of a rank, before and after the point. -/
theorem sixPlacesMagnitude_eq (rank : Nat) :
    ∃ n, n = roundDiv ((Magnitude.ofRank rank).units * Nat.pow 10 6) (Nat.pow 2 unitBits) ∧
      sixPlacesMagnitude rank = numeral (n / 10 ^ 6) ++ '.' :: sixDigits (n % 10 ^ 6) :=
  ⟨_, rfl, rfl⟩

theorem Rounded.readUnsigned?_point (negative : Bool) (n : Nat) :
    readUnsigned? negative (numeral (n / 10 ^ 6) ++ '.' :: sixDigits (n % 10 ^ 6)) =
      some (.millionths negative n) := by
  have hwhole : '.' ∉ numeral (n / 10 ^ 6) := fun hpoint =>
    absurd (isDigit_of_mem_numeral hpoint) (by decide)
  have hfraction : '.' ∉ sixDigits (n % 10 ^ 6) := fun hpoint =>
    absurd (isDigit_of_mem_sixDigits hpoint) (by decide)
  have hword : numeral (n / 10 ^ 6) ++ '.' :: sixDigits (n % 10 ^ 6) ≠ ['i', 'n', 'f'] := by
    intro h
    have hmem : '.' ∈ ['i', 'n', 'f'] := by
      rw [← h]
      simp
    exact absurd hmem (by decide)
  rw [readUnsigned?, if_neg hword, List.splitOn_append_cons_self_of_not_mem hwhole,
    List.splitOn_eq_singleton hfraction]
  dsimp only
  rw [isNumeral_numeral, isNumeral_sixDigits, length_sixDigits (Nat.mod_lt n (by decide)),
    numeralValue_numeral, numeralValue_sixDigits, Nat.div_add_mod']
  rfl

theorem Rounded.read?_of_isDigit {d : Char} (hd : d.isDigit = true) (cs : List Char) :
    read? (d :: cs) = readUnsigned? false (d :: cs) := by
  unfold read?
  split
  · rename_i heq
    cases heq
    exact absurd hd (by decide)
  · rename_i heq
    cases heq
    exact absurd hd (by decide)
  · rfl

/-- A number with six decimal places reads back as its rounding. -/
theorem Rounded.read?_sixPlaces (x : Float) : read? (sixPlaces x) = some (rounded x) := by
  unfold sixPlaces rounded
  cases valueOf x with
  | nan => rfl
  | infinite negative => cases negative <;> rfl
  | finite negative rank =>
    obtain ⟨n, hn, htext⟩ := sixPlacesMagnitude_eq rank
    dsimp only [sixPlacesValue]
    rw [← hn, htext]
    cases negative with
    | true => exact readUnsigned?_point true n
    | false =>
      obtain ⟨d, ds, hdigits⟩ := List.exists_cons_of_ne_nil (numeral_ne_nil (n / 10 ^ 6))
      have hmem : d ∈ numeral (n / 10 ^ 6) := by
        rw [hdigits]
        exact List.mem_cons_self
      have hd : d.isDigit = true := isDigit_of_mem_numeral hmem
      have hpoint := readUnsigned?_point false n
      rw [hdigits] at hpoint ⊢
      exact (read?_of_isDigit hd _).trans hpoint

/-- The characters of a number with six decimal places: digits, a point, a minus sign and the
letters of the words. -/
theorem mem_sixPlaces {x : Float} {c : Char} (h : c ∈ sixPlaces x) :
    c.isDigit = true ∨ c ∈ ['.', '-', 'i', 'n', 'f', 'N', 'a'] := by
  unfold sixPlaces at h
  cases hx : valueOf x with
  | nan =>
    rw [hx] at h
    simp only [sixPlacesValue, List.mem_cons, List.not_mem_nil, or_false] at h
    grind
  | infinite negative =>
    rw [hx, sixPlacesValue] at h
    rcases List.mem_append.mp h with h | h
    · rw [mem_signText h]
      decide
    · grind
  | finite negative rank =>
    obtain ⟨n, -, htext⟩ := sixPlacesMagnitude_eq rank
    rw [hx, sixPlacesValue, htext] at h
    simp only [List.mem_append, List.mem_cons] at h
    rcases h with h | h | rfl | h
    · rw [mem_signText h]
      decide
    · exact Or.inl (isDigit_of_mem_numeral h)
    · decide
    · exact Or.inl (isDigit_of_mem_sixDigits h)

end QuantumCompiler.Decimal
