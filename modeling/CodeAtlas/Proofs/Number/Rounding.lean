import CodeAtlas.Proofs.Number.Range
import Mathlib.Algebra.Order.Field.Power
import Mathlib.Algebra.Order.Floor.Ring
import Mathlib.Data.Rat.Cast.Order
import Mathlib.Tactic.FieldSimp
import Mathlib.Tactic.Linarith
import Mathlib.Tactic.Positivity
import Mathlib.Tactic.Ring

/-!
# What rounds to a floating-point number

The quotients that round to a floating-point number `m · 2 ^ e` are those from half a unit below it
to half a unit above it, the ends included when `m` is even. Below a power of two the units are half
as large.

## Main results

`Dyadic.Covers` is that interval, and `nearest?_of_covers` says that all of it rounds to the number.
-/

namespace CodeAtlas.Number

/-! ### Rounding to a whole number -/

/-- It rounds to the whole number `k`: it is at most a half away, and less when `k` is odd. -/
structure RoundsTo (v : ℚ) (k : ℕ) : Prop where
  low : (k : ℚ) - 1 / 2 ≤ v
  high : v ≤ k + 1 / 2
  odd : k % 2 = 1 → (k : ℚ) - 1 / 2 < v ∧ v < k + 1 / 2

theorem roundDiv_eq {num den k : ℕ} (pos : 0 < den) (rounds : RoundsTo ((num : ℚ) / den) k) :
    roundDiv num den = k := by
  have den_pos : (0 : ℚ) < den := by exact_mod_cast pos
  obtain ⟨low, high, odd⟩ := rounds
  -- The same over the common denominator, in whole numbers.
  have low : 2 * k * den ≤ 2 * num + den := by
    rw [le_div_iff₀ den_pos] at low
    exact_mod_cast (by linarith : (2 * k * den : ℚ) ≤ 2 * num + den)
  have high : 2 * num ≤ 2 * k * den + den := by
    rw [div_le_iff₀ den_pos] at high
    exact_mod_cast (by linarith : (2 * num : ℚ) ≤ 2 * k * den + den)
  have odd : k % 2 = 1 → 2 * k * den < 2 * num + den ∧ 2 * num < 2 * k * den + den := by
    intro isOdd
    obtain ⟨above, below⟩ := odd isOdd
    rw [lt_div_iff₀ den_pos] at above
    rw [div_lt_iff₀ den_pos] at below
    constructor
    · exact_mod_cast (by linarith : (2 * k * den : ℚ) < 2 * num + den)
    · exact_mod_cast (by linarith : (2 * num : ℚ) < 2 * k * den + den)
  have parts : den * (num / den) + num % den = num := Nat.div_add_mod num den
  have small : num % den < den := Nat.mod_lt _ pos
  simp only [roundDiv]
  generalize num / den = q at parts ⊢
  generalize num % den = r at parts small ⊢
  -- The whole number is the quotient or the one behind it.
  have least : q ≤ k := by
    by_contra less
    have : den * (k + 1) ≤ den * q := Nat.mul_le_mul_left _ (by omega)
    nlinarith
  have most : k ≤ q + 1 := by
    by_contra more
    have : den * (q + 2) ≤ den * k := Nat.mul_le_mul_left _ (by omega)
    nlinarith
  obtain rfl | rfl : k = q ∨ k = q + 1 := by omega
  · have half : 2 * r ≤ den := by nlinarith
    have less : k % 2 = 1 → 2 * r < den := fun isOdd => by nlinarith [odd isOdd]
    split_ifs <;> omega
  · have half : den ≤ 2 * r := by nlinarith
    have more : (q + 1) % 2 = 1 → den < 2 * r := fun isOdd => by nlinarith [odd isOdd]
    split_ifs <;> omega

theorem cast_twoPow (n : ℕ) : (twoPow n : ℚ) = 2 ^ n := by
  simp [twoPow]

theorem cast_tenPow (n : ℕ) : (tenPow n : ℚ) = 10 ^ n := by
  simp [tenPow]

/-- A power is a quotient of natural numbers. -/
private theorem natCast_zpow (base : ℕ) (e : ℤ) : (base : ℚ) ^ e =
    if 0 ≤ e then ((base ^ e.toNat : ℕ) : ℚ) else 1 / ((base ^ (-e).toNat : ℕ) : ℚ) := by
  split
  next whole => rw [Nat.cast_pow, ← zpow_natCast, Int.toNat_of_nonneg whole]
  next part =>
    rw [Nat.cast_pow, ← zpow_natCast, Int.toNat_of_nonneg (by omega), one_div, ← zpow_neg, neg_neg]

theorem two_zpow (e : ℤ) : (2 : ℚ) ^ e =
    if 0 ≤ e then (twoPow e.toNat : ℚ) else 1 / (twoPow (-e).toNat : ℚ) :=
  natCast_zpow 2 e

theorem ten_zpow (e : ℤ) : (10 : ℚ) ^ e =
    if 0 ≤ e then (tenPow e.toNat : ℚ) else 1 / (tenPow (-e).toNat : ℚ) :=
  natCast_zpow 10 e

/-- Rounding to a multiple of a power of two. -/
theorem roundDiv_scaled {num den k : ℕ} {e : ℤ} (pos : 0 < den)
    (rounds : RoundsTo ((num : ℚ) / den / 2 ^ e) k) :
    (if 0 ≤ e then roundDiv num (den * twoPow e.toNat)
      else roundDiv (num * twoPow (-e).toNat) den) = k := by
  rw [two_zpow] at rounds
  split
  next whole =>
    rw [if_pos whole, div_div] at rounds
    exact roundDiv_eq (Nat.mul_pos pos (twoPow_pos _)) (by exact_mod_cast rounds)
  next part =>
    rw [if_neg part, div_div_eq_mul_div, div_one, div_mul_eq_mul_div] at rounds
    exact roundDiv_eq pos (by exact_mod_cast rounds)

/-! ### The exponent -/

theorem log2_bounds {n : ℕ} (pos : 0 < n) :
    (2 : ℚ) ^ (n.log2 : ℤ) ≤ n ∧ (n : ℚ) < 2 ^ ((n.log2 : ℤ) + 1) := by
  constructor
  · rw [zpow_natCast]
    exact_mod_cast Nat.log2_self_le pos.ne'
  · have : n < 2 ^ (n.log2 + 1) := Nat.lt_log2_self
    exact_mod_cast this

/-- The binary exponent of a quotient is the largest power of two up to it. -/
theorem binaryExponent_bounds {num den : ℕ} (num_pos : 0 < num) (den_pos : 0 < den) :
    (2 : ℚ) ^ binaryExponent num den ≤ (num : ℚ) / den ∧
      (num : ℚ) / den < 2 ^ (binaryExponent num den + 1) := by
  have pos : (0 : ℚ) < den := by exact_mod_cast den_pos
  obtain ⟨numLow, numHigh⟩ := log2_bounds num_pos
  obtain ⟨denLow, denHigh⟩ := log2_bounds den_pos
  set guess : ℤ := (num.log2 : ℤ) - den.log2 with guess_eq
  -- The quotient lies between the powers of two on both sides of the guess.
  have above : (2 : ℚ) ^ (guess - 1) < num / den := by
    rw [lt_div_iff₀ pos]
    calc (2 : ℚ) ^ (guess - 1) * den
        < 2 ^ (guess - 1) * 2 ^ ((den.log2 : ℤ) + 1) := by
          exact mul_lt_mul_of_pos_left denHigh (by positivity)
      _ = 2 ^ (num.log2 : ℤ) := by
          rw [← zpow_add₀ two_ne_zero]
          congr 1
          omega
      _ ≤ num := numLow
  have below : (num : ℚ) / den < 2 ^ (guess + 1) := by
    rw [div_lt_iff₀ pos]
    calc (num : ℚ) < 2 ^ ((num.log2 : ℤ) + 1) := numHigh
      _ = 2 ^ (guess + 1) * 2 ^ (den.log2 : ℤ) := by
          rw [← zpow_add₀ two_ne_zero]
          congr 1
          omega
      _ ≤ 2 ^ (guess + 1) * den := mul_le_mul_of_nonneg_left denLow (by positivity)
  have reached : (if 0 ≤ guess then decide (den * twoPow guess.toNat ≤ num)
      else decide (den ≤ num * twoPow (-guess).toNat)) = true ↔ (2 : ℚ) ^ guess ≤ num / den := by
    rw [two_zpow]
    split
    · rw [decide_eq_true_iff, le_div_iff₀ pos, mul_comm]
      exact_mod_cast Iff.rfl
    · rw [decide_eq_true_iff, div_le_div_iff₀ (by exact_mod_cast twoPow_pos _) pos, one_mul]
      exact_mod_cast Iff.rfl
  rw [binaryExponent, ← guess_eq]
  by_cases holds : (2 : ℚ) ^ guess ≤ num / den
  · rw [if_pos (reached.mpr holds)]
    exact ⟨holds, below⟩
  · rw [if_neg (mt reached.mp holds), sub_add_cancel]
    exact ⟨above.le, not_le.mp holds⟩

/-- Only one power of two is the largest up to a number. -/
theorem exponent_unique {v : ℚ} {a b : ℤ} (a_le : (2 : ℚ) ^ a ≤ v) (lt_a : v < 2 ^ (a + 1))
    (b_le : (2 : ℚ) ^ b ≤ v) (lt_b : v < 2 ^ (b + 1)) : a = b := by
  have first : a < b + 1 := (zpow_lt_zpow_iff_right₀ one_lt_two).mp (a_le.trans_lt lt_b)
  have second : b < a + 1 := (zpow_lt_zpow_iff_right₀ one_lt_two).mp (b_le.trans_lt lt_a)
  omega

/-! ### Floating-point numbers -/

namespace Dyadic

/-- The mantissa and the exponent are those of the format. -/
structure Canonical (d : Dyadic) : Prop where
  least : -1074 ≤ d.exponent
  most : d.exponent ≤ 971
  fits : d.mantissa < twoPow 53
  normal : d.mantissa < twoPow 52 → d.exponent = -1074

/-- The number without its sign. -/
def magnitude (d : Dyadic) : ℚ :=
  d.mantissa * 2 ^ d.exponent

/-- The units below the number are half as large as those above it. -/
def isNarrow (d : Dyadic) : Bool :=
  d.mantissa == twoPow 52 && -1074 < d.exponent

/-- How far the interval around the number goes down, in units. -/
def reach (d : Dyadic) : ℚ :=
  if d.isNarrow then 1 / 4 else 1 / 2

/-- It lies in the interval of what rounds to the number. -/
structure Covers (d : Dyadic) (v : ℚ) : Prop where
  low : (d.mantissa - d.reach) * 2 ^ d.exponent ≤ v
  high : v ≤ (d.mantissa + 1 / 2) * 2 ^ d.exponent
  odd : d.mantissa % 2 = 1 → (d.mantissa - d.reach) * 2 ^ d.exponent < v ∧
    v < (d.mantissa + 1 / 2) * 2 ^ d.exponent

/-- The fields of the format without the sign. -/
def fields (d : Dyadic) : ℕ :=
  (d.exponent + 1074).toNat * twoPow 52 + d.mantissa

theorem Canonical.fields_lt {d : Dyadic} (canonical : d.Canonical) :
    d.fields < 2047 * twoPow 52 := by
  obtain ⟨least, most, fits, -⟩ := canonical
  rw [twoPow_53] at fits
  rw [fields, twoPow_52]
  omega

theorem reach_le (d : Dyadic) : 1 / 4 ≤ d.reach ∧ d.reach ≤ 1 / 2 := by
  rw [reach]
  split <;> norm_num

variable {d : Dyadic} {v : ℚ}

/-- Measured in units of the number, what it covers rounds to its mantissa. -/
theorem Covers.roundsTo (covers : d.Covers v) : RoundsTo (v / 2 ^ d.exponent) d.mantissa := by
  have unit : (0 : ℚ) < 2 ^ d.exponent := by positivity
  obtain ⟨low, high, odd⟩ := covers
  have reach := d.reach_le.2
  refine ⟨?_, ?_, fun isOdd => ⟨?_, ?_⟩⟩
  · rw [le_div_iff₀ unit]
    exact (mul_le_mul_of_nonneg_right (by linarith) unit.le).trans low
  · rwa [div_le_iff₀ unit]
  · rw [lt_div_iff₀ unit]
    exact (mul_le_mul_of_nonneg_right (by linarith) unit.le).trans_lt (odd isOdd).1
  · rw [div_lt_iff₀ unit]
    exact (odd isOdd).2

theorem Covers.pos (covers : d.Covers v) (nonzero : d.mantissa ≠ 0) : 0 < v := by
  have one : (1 : ℚ) ≤ d.mantissa := by exact_mod_cast Nat.one_le_iff_ne_zero.mpr nonzero
  refine lt_of_lt_of_le (mul_pos ?_ (by positivity)) covers.low
  linarith [d.reach_le.2]

/-- The powers of two of the format lie well inside these powers of ten. -/
theorem two_pow_lt_ten_pow : (2 : ℚ) ^ 1075 < 10 ^ 400 := by
  have powers : (2 : ℚ) ^ (3 * 400) < 10 ^ 400 := by
    rw [pow_mul]
    exact pow_lt_pow_left₀ (by norm_num) (by norm_num) (by norm_num)
  exact (pow_le_pow_right₀ one_le_two (by norm_num)).trans_lt powers

/-- What a number covers is at least half of the least unit. -/
theorem Covers.gt (canonical : d.Canonical) (nonzero : d.mantissa ≠ 0) (covers : d.Covers v) :
    (10 : ℚ) ^ (-400 : ℤ) < v := by
  have one : (1 : ℚ) ≤ d.mantissa := by exact_mod_cast Nat.one_le_iff_ne_zero.mpr nonzero
  have half : (1 : ℚ) / 2 ≤ d.mantissa - d.reach := by linarith [d.reach_le.2]
  have bottom : (2 : ℚ) ^ (-1074 : ℤ) ≤ 2 ^ d.exponent :=
    zpow_le_zpow_right₀ one_le_two canonical.least
  calc (10 : ℚ) ^ (-400 : ℤ) < (2 ^ 1075)⁻¹ := inv_strictAnti₀ (by positivity) two_pow_lt_ten_pow
    _ = 1 / 2 * 2 ^ (-1074 : ℤ) := by
      rw [pow_succ, mul_inv, mul_comm, one_div]
      rfl
    _ ≤ (d.mantissa - d.reach) * 2 ^ d.exponent :=
      mul_le_mul half bottom (by positivity) (by linarith)
    _ ≤ v := covers.low

/-- What a number covers is at most the power of two at which the format ends. -/
theorem Covers.lt (canonical : d.Canonical) (covers : d.Covers v) : v < 10 ^ (400 : ℤ) := by
  have fits : d.mantissa + 1 ≤ 2 ^ 53 := canonical.fits
  have fits : (d.mantissa : ℚ) + 1 ≤ 2 ^ 53 := by exact_mod_cast fits
  calc v ≤ (d.mantissa + 1 / 2) * 2 ^ d.exponent := covers.high
    _ ≤ 2 ^ 53 * 2 ^ (971 : ℤ) :=
      mul_le_mul (by linarith) (zpow_le_zpow_right₀ one_le_two canonical.most)
        (by positivity) (by positivity)
    _ = 2 ^ 1024 := by rw [zpow_ofNat, ← pow_add]
    _ ≤ 2 ^ 1075 := pow_le_pow_right₀ one_le_two (by norm_num)
    _ < 10 ^ (400 : ℤ) := two_pow_lt_ten_pow

/-- Just below a power of two there is but the narrow part of its interval. -/
theorem Covers.below (canonical : d.Canonical) (covers : d.Covers v)
    (below : v < 2 ^ (d.exponent + 52)) (above : -1074 < d.exponent) :
    d.mantissa = twoPow 52 ∧ (2 : ℚ) ^ (d.exponent + 51) ≤ v ∧
      RoundsTo (v / 2 ^ (d.exponent - 1)) (twoPow 53) := by
  have unit : (0 : ℚ) < 2 ^ d.exponent := by positivity
  have normal : twoPow 52 ≤ d.mantissa := by
    by_contra less
    exact absurd (canonical.normal (not_le.mp less)) (by omega)
  have power (k : ℕ) : (2 : ℚ) ^ (d.exponent + k) = twoPow k * 2 ^ d.exponent := by
    rw [zpow_add₀ two_ne_zero, cast_twoPow, mul_comm, zpow_natCast]
  have half : (2 : ℚ) ^ (d.exponent - 1) = 2 ^ d.exponent / 2 := by
    rw [zpow_sub_one₀ two_ne_zero, div_eq_mul_inv]
  have p51 := power 51
  have p52 := power 52
  norm_cast at p51 p52
  have even : d.mantissa = twoPow 52 := by
    by_contra other
    have more : (twoPow 52 : ℚ) + 1 ≤ d.mantissa := by
      exact_mod_cast lt_of_le_of_ne normal (Ne.symm other)
    have : (twoPow 52 : ℚ) * 2 ^ d.exponent ≤ (d.mantissa - d.reach) * 2 ^ d.exponent :=
      mul_le_mul_of_nonneg_right (by linarith [d.reach_le.2]) unit.le
    have := covers.low
    linarith
  have reach : d.reach = 1 / 4 := by
    rw [Dyadic.reach, isNarrow, even]
    simp [above]
  have low := covers.low
  rw [even, reach] at low
  refine ⟨even, ?_, ?_⟩
  · rw [p51]
    refine le_trans (mul_le_mul_of_nonneg_right ?_ unit.le) low
    rw [cast_twoPow, cast_twoPow]
    norm_num
  · rw [half]
    have value : (twoPow 53 : ℚ) = 2 * twoPow 52 := by
      rw [cast_twoPow, cast_twoPow]
      norm_num
    refine ⟨?_, ?_, fun odd => absurd odd (by decide)⟩
    · rw [le_div_iff₀ (by linarith), value]
      linarith
    · rw [div_le_iff₀ (by linarith), value]
      rw [p52] at below
      linarith

end Dyadic

/-- What a floating-point number covers rounds to it. -/
theorem nearest?_of_covers {d : Dyadic} (canonical : d.Canonical) (nonzero : d.mantissa ≠ 0)
    {num den : ℕ} (pos : 0 < den) (covers : d.Covers ((num : ℚ) / den)) (negative : Bool) :
    nearest? negative num den =
      some (.ofBits (.ofNat ((if negative then twoPow 63 else 0) + d.fields))) := by
  have v_pos := covers.pos nonzero
  have num_pos : 0 < num := by
    by_contra zero
    simp [Nat.eq_zero_of_not_pos zero] at v_pos
  obtain ⟨low, high⟩ := binaryExponent_bounds num_pos pos
  -- It is enough that the exponent and the mantissa make up the fields.
  suffices made : ∀ e k, max (binaryExponent num den - 52) (-1074) = e →
      RoundsTo ((num : ℚ) / den / 2 ^ e) k → (e + 1074).toNat * twoPow 52 + k = d.fields →
      nearest? negative num den =
        some (.ofBits (.ofNat ((if negative then twoPow 63 else 0) + d.fields))) by
    have least := canonical.least
    rcases lt_or_ge ((num : ℚ) / den) (2 ^ (d.exponent + 52)) with below | above
    · rcases least.eq_or_lt with bottom | up
      · -- All exponents below the least one are the least one.
        have less : binaryExponent num den < d.exponent + 52 :=
          (zpow_lt_zpow_iff_right₀ one_lt_two).mp (low.trans_lt below)
        exact made d.exponent d.mantissa (by omega) covers.roundsTo rfl
      · obtain ⟨even, enough, rounds⟩ := covers.below canonical below up
        have exponent : binaryExponent num den = d.exponent + 51 :=
          exponent_unique low high enough (by rwa [add_assoc])
        refine made (d.exponent - 1) (twoPow 53) (by omega) rounds ?_
        rw [Dyadic.fields, even, twoPow_53, twoPow_52]
        omega
    · have less : (num : ℚ) / den < 2 ^ (d.exponent + 52 + 1) := by
        refine covers.high.trans_lt ?_
        rw [add_assoc, zpow_add₀ two_ne_zero, mul_comm]
        refine mul_lt_mul_of_pos_left ?_ (by positivity)
        have fits : (d.mantissa : ℚ) + 1 ≤ twoPow 53 := by exact_mod_cast canonical.fits
        rw [cast_twoPow] at fits
        norm_num at fits ⊢
        linarith
      have exponent := exponent_unique low high above less
      exact made d.exponent d.mantissa (by omega) covers.roundsTo rfl
  rintro e k rfl rounds same
  rw [nearest?, if_neg (by simpa using num_pos.ne')]
  simp only
  rw [roundDiv_scaled pos rounds, same, if_pos canonical.fields_lt]

end CodeAtlas.Number
