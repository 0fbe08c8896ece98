import CodeAtlas.Number.Scalar
import Mathlib.Algebra.Order.Group.Nat
import Mathlib.Tactic.Common

/-!
# The range of floating-point numbers

A whole number has a nearest floating-point number until it comes half a unit beyond the largest
one, `(2 ^ 53 - 1) * 2 ^ 971`: there a half goes to the even neighbour, which has no place any more.
-/

namespace CodeAtlas.Number

variable {negative : Bool}

/-- Half a unit beyond the largest floating-point number. -/
def beyondFloats : ℕ :=
  twoPow 1024 - twoPow 970

/-- A quotient by an even number stays below an even bound until it comes within half a unit. -/
theorem roundDiv_lt_iff (num bound : ℕ) {half : ℕ} (positive : 0 < half) :
    roundDiv num (2 * half) < 2 * bound ↔ num + half < 2 * half * (2 * bound) := by
  have parts : 2 * half * (num / (2 * half)) + num % (2 * half) = num := Nat.div_add_mod num _
  have small : num % (2 * half) < 2 * half := Nat.mod_lt _ (by omega)
  simp only [roundDiv]
  generalize num / (2 * half) = q at parts ⊢
  generalize num % (2 * half) = r at parts small ⊢
  have below (k : ℕ) : 2 * half * k < 2 * half * (2 * bound) ↔ k < 2 * bound :=
    Nat.mul_lt_mul_left (by omega)
  have upTo {k : ℕ} (le : k ≤ 2 * bound) : 2 * half * k ≤ 2 * half * (2 * bound) :=
    Nat.mul_le_mul_left _ le
  have once : 2 * half * (q + 1) = 2 * half * q + 2 * half := Nat.mul_succ _ _
  have twice : 2 * half * (q + 2) = 2 * half * (q + 1) + 2 * half := Nat.mul_succ _ _
  -- The rest is below, at or above half of the divisor; at half the even neighbour is taken.
  rcases lt_trichotomy r half with less | rfl | more
  · rw [if_pos (by omega), ← below]
    constructor
    · intro lower
      have := upTo (k := q + 1) ((below q).mp lower)
      omega
    · omega
  · rw [if_neg (by omega), if_neg (by omega)]
    have tie : q + q % 2 < 2 * bound ↔ q + 1 < 2 * bound := by omega
    rw [tie, ← below]
    omega
  · rw [if_neg (by omega), if_pos (by omega), ← below]
    constructor
    · intro lower
      have := upTo (k := q + 2) ((below (q + 1)).mp lower)
      omega
    · omega

theorem div_le_roundDiv (num den : ℕ) : num / den ≤ roundDiv num den := by
  simp only [roundDiv]
  split_ifs <;> omega

theorem roundDiv_le_div_succ (num den : ℕ) : roundDiv num den ≤ num / den + 1 := by
  simp only [roundDiv]
  split_ifs <;> omega

theorem binaryExponent_one {n : ℕ} (positive : n ≠ 0) : binaryExponent n 1 = n.log2 := by
  have reached : twoPow n.log2 ≤ n := Nat.log2_self_le positive
  simp [binaryExponent, reached, show Nat.log2 1 = 0 from rfl]

theorem twoPow_add (m n : ℕ) : twoPow (m + n) = twoPow m * twoPow n :=
  Nat.pow_add 2 m n

theorem twoPow_pos (n : ℕ) : 0 < twoPow n :=
  Nat.two_pow_pos n

theorem twoPow_le {m n : ℕ} (le : m ≤ n) : twoPow m ≤ twoPow n :=
  Nat.pow_le_pow_right (by decide) le

theorem twoPow_52 : twoPow 52 = 4503599627370496 := rfl

theorem twoPow_53 : twoPow 53 = 9007199254740992 := rfl

/-- The fields of the format that a whole number rounds to decide whether it has a place in it. -/
theorem nearest?_eq_none_iff_fields {n : ℕ} (large : 52 ≤ n.log2) :
    nearest? negative n 1 = none ↔
      2047 * twoPow 52 ≤ (n.log2 + 1022) * twoPow 52 + roundDiv n (twoPow (n.log2 - 52)) := by
  have positive : n ≠ 0 := by
    rintro rfl
    simp at large
  have exponent : max ((n.log2 : ℤ) - 52) (-1074) = (n.log2 - 52 : ℕ) := by omega
  have field : (((n.log2 - 52 : ℕ) : ℤ) + 1074).toNat = n.log2 + 1022 := by omega
  simp [nearest?, positive, binaryExponent_one positive, exponent, field]

theorem nearest?_ne_none_of_log2_lt {n : ℕ} (small : n.log2 < 52) :
    nearest? negative n 1 ≠ none := by
  by_cases zero : n = 0
  · simp [nearest?, zero]
  have exponent : max ((n.log2 : ℤ) - 52) (-1074) = -(52 - n.log2 : ℕ) := by omega
  have below : ¬ 0 ≤ -((52 - n.log2 : ℕ) : ℤ) := by omega
  have field : (-((52 - n.log2 : ℕ) : ℤ) + 1074).toNat = n.log2 + 1022 := by omega
  have mantissa : roundDiv (n * twoPow (52 - n.log2)) 1 ≤ twoPow 53 :=
    calc roundDiv (n * twoPow (52 - n.log2)) 1
        ≤ n * twoPow (52 - n.log2) / 1 + 1 := roundDiv_le_div_succ _ _
      _ = n * twoPow (52 - n.log2) + 1 := by rw [Nat.div_one]
      _ ≤ twoPow (n.log2 + 1) * twoPow (52 - n.log2) :=
          Nat.mul_lt_mul_of_pos_right Nat.lt_log2_self (twoPow_pos _)
      _ = twoPow 53 := by rw [← twoPow_add]; congr 1; omega
  have fits : (n.log2 + 1022) * twoPow 52 + roundDiv (n * twoPow (52 - n.log2)) 1 <
      2047 * twoPow 52 := by
    rw [twoPow_53] at mantissa
    rw [twoPow_52]
    omega
  simp only [nearest?, beq_eq_false_iff_ne.mpr zero, binaryExponent_one zero, exponent, if_neg below,
    field, Int.neg_neg, Int.toNat_natCast, if_pos fits]
  simp

/-- The mantissa of a whole number has 53 bits, before it is rounded. -/
theorem mantissa_range {n : ℕ} (large : 52 ≤ n.log2) :
    twoPow 52 ≤ n / twoPow (n.log2 - 52) ∧ n / twoPow (n.log2 - 52) < twoPow 53 := by
  have positive : n ≠ 0 := by
    rintro rfl
    simp at large
  have least : twoPow 52 * twoPow (n.log2 - 52) = twoPow n.log2 := by
    rw [← twoPow_add]
    congr 1
    omega
  have most : twoPow 53 * twoPow (n.log2 - 52) = twoPow (n.log2 + 1) := by
    rw [← twoPow_add]
    congr 1
    omega
  rw [Nat.le_div_iff_mul_le (twoPow_pos _), Nat.div_lt_iff_lt_mul (twoPow_pos _), least, most]
  exact ⟨Nat.log2_self_le positive, Nat.lt_log2_self⟩

/-- A whole number has a nearest floating-point number unless it is beyond them all. -/
theorem nearest?_eq_none_iff {n : ℕ} :
    nearest? negative n 1 = none ↔ beyondFloats ≤ n := by
  -- Everything is measured in half a unit of the largest numbers.
  have place : 0 < twoPow 970 := twoPow_pos _
  have top : twoPow 1023 = twoPow 970 * twoPow 53 := twoPow_add 970 53
  have beyond : twoPow 1024 = twoPow 1023 * twoPow 1 := twoPow_add 1023 1
  have most : n < twoPow (n.log2 + 1) := Nat.lt_log2_self
  rw [show twoPow 1 = 2 from rfl] at beyond
  rw [twoPow_53] at top
  rw [beyondFloats]
  rcases lt_or_ge n.log2 52 with small | large
  · have low : twoPow (n.log2 + 1) ≤ twoPow 970 := twoPow_le (by omega)
    simp only [nearest?_ne_none_of_log2_lt small, false_iff]
    omega
  obtain ⟨least, fits⟩ := mantissa_range large
  rw [nearest?_eq_none_iff_fields large]
  rw [twoPow_52] at least ⊢
  rw [twoPow_53] at fits
  rcases lt_trichotomy n.log2 1023 with less | last | more
  · -- Even rounded up, the mantissa leaves the last exponent free.
    have low : twoPow (n.log2 + 1) ≤ twoPow 1023 := twoPow_le less
    have rounded := roundDiv_le_div_succ n (twoPow (n.log2 - 52))
    omega
  · -- Under the last exponent the mantissa must not be rounded up to the next power of two.
    have even : twoPow (n.log2 - 52) = twoPow 1 * twoPow 970 := by
      rw [last]
      exact twoPow_add 1 970
    rw [show twoPow 1 = 2 from rfl] at even
    have rounded := roundDiv_lt_iff n 4503599627370496 place
    rw [even, last]
    omega
  · have high : twoPow 1024 ≤ twoPow n.log2 := twoPow_le more
    have reached : twoPow n.log2 ≤ n := Nat.log2_self_le (by rintro rfl; simp at large)
    have rounded := div_le_roundDiv n (twoPow (n.log2 - 52))
    omega

theorem Scalar.toFloat?_whole_eq_error_iff {n : ℤ} {cause : Overflow} :
    (Scalar.whole n).toFloat? = .error cause ↔
      cause = .number ∧ beyondFloats ≤ n.natAbs := by
  have range := @nearest?_eq_none_iff (decide (n < 0)) n.natAbs
  simp only [Scalar.toFloat?]
  cases found : nearest? (decide (n < 0)) n.natAbs 1 with
  | none => simp [range.mp found, eq_comm]
  | some x => simp [← range, found]

end CodeAtlas.Number
