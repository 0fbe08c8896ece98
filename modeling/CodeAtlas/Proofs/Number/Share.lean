import CodeAtlas.Proofs.Number.Order
import CodeAtlas.Proofs.Number.Rounding

/-!
# Shares

A quotient of at most one is a floating-point number between zero and one, and it stays there when
it is rounded to decimals.

## Main results

`isShare_nearest` and `isShare_roundTo`; `IsShare.bounds` says where a share stands.

## Proof strategy

The bits of one are `1023 · 2 ^ 52`. A quotient below one has a smaller exponent field; its mantissa
may round up to a power of two, and the carry then reaches the bits of one at most.
-/

namespace CodeAtlas.Number

variable {num den : ℕ} {x : Float}

/-- It has the bits of a number between zero and one. -/
def IsShare (x : Float) : Prop :=
  x.toBits.toNat ≤ 1023 * twoPow 52

theorem IsShare.bounds (share : IsShare x) : 0.0 ≤ x ∧ x ≤ 1.0 := by
  constructor
  · refine float_le_of_bits (lt_of_le_of_lt share (by decide)) ?_
    exact Nat.zero_le _
  · exact float_le_of_bits (by decide) share

theorem isShare_ofBits {bits : ℕ} (le : bits ≤ 1023 * twoPow 52) :
    IsShare (.ofBits (.ofNat bits)) := by
  rw [twoPow_52] at le
  have field : bits / twoPow 52 % twoPow 11 ≠ 2047 := by
    show bits / 2 ^ 52 % 2 ^ 11 ≠ 2047
    omega
  rw [IsShare, toBits_ofBits field, UInt64.toNat_ofNat', twoPow_52]
  omega

/-! ### Quotients -/

theorem roundDiv_le {bound : ℕ} (le : num ≤ bound * den) : roundDiv num den ≤ bound := by
  have succ := roundDiv_le_div_succ num den
  rcases Nat.lt_or_ge (num / den) bound with less | more
  · omega
  · -- Only the bound itself is not below it, and it is met without a rest.
    rcases den.eq_zero_or_pos with rfl | pos
    · obtain rfl : num = 0 := by omega
      exact Nat.zero_le _
    · have same : num = bound * den := le_antisymm le ((Nat.le_div_iff_mul_le pos).mp more)
      rw [same, roundDiv, Nat.mul_mod_left, Nat.mul_div_cancel _ pos, if_pos (by omega)]

/-- A quotient of at most one rounds to bits that are at most those of one. -/
theorem isShare_nearest (le : num ≤ den) (pos : 0 < den) : IsShare (nearest false num den) := by
  rcases num.eq_zero_or_pos with rfl | num_pos
  · exact @isShare_ofBits 0 (Nat.zero_le _)
  obtain ⟨low, high⟩ := binaryExponent_bounds num_pos pos
  have den_pos : (0 : ℚ) < den := by exact_mod_cast pos
  have one : (num : ℚ) / den ≤ 1 := by
    rw [div_le_one den_pos]
    exact_mod_cast le
  set binary := binaryExponent num den with binary_eq
  have binary_le : binary ≤ 0 := by
    by_contra more
    exact absurd (low.trans one) (one_lt_zpow₀ one_lt_two (by omega)).not_ge
  set unit : ℤ := max (binary - 52) (-1074) with unit_eq
  have below : ¬ 0 ≤ unit := by omega
  have mantissa {e : ℤ} (width : ℕ) (most : (num : ℚ) / den ≤ 2 ^ e) (fits : e - unit ≤ width) :
      roundDiv (num * twoPow (-unit).toNat) den ≤ twoPow width := by
    refine roundDiv_le ?_
    have room : (num : ℚ) / den * twoPow (-unit).toNat ≤ twoPow width :=
      calc (num : ℚ) / den * twoPow (-unit).toNat
          = num / den * 2 ^ (-unit) := by rw [two_zpow, if_pos (by omega)]
        _ ≤ 2 ^ e * 2 ^ (-unit) := mul_le_mul_of_nonneg_right most (by positivity)
        _ = 2 ^ (e - unit) := by rw [← zpow_add₀ two_ne_zero, sub_eq_add_neg]
        _ ≤ 2 ^ (width : ℤ) := zpow_le_zpow_right₀ one_le_two fits
        _ = twoPow width := by rw [zpow_natCast, cast_twoPow]
    rw [div_mul_eq_mul_div, div_le_iff₀ den_pos] at room
    exact_mod_cast room
  have fields : (unit + 1074).toNat * twoPow 52 + roundDiv (num * twoPow (-unit).toNat) den ≤
      1023 * twoPow 52 := by
    rcases binary_le.lt_or_eq with less | same
    · have carried := mantissa 53 high.le (by omega)
      rw [twoPow_53] at carried
      rw [twoPow_52]
      omega
    · have whole := mantissa (e := 0) 52 (by rwa [zpow_zero]) (by omega)
      rw [twoPow_52] at whole ⊢
      omega
  rw [nearest, nearest?, if_neg (by simpa using num_pos.ne')]
  simp only [← binary_eq, ← unit_eq, if_neg below]
  rw [if_pos (lt_of_le_of_lt fields (by decide)), Option.getD_some, if_neg Bool.false_ne_true,
    Nat.zero_add]
  exact isShare_ofBits fields

/-! ### Decimals -/

theorem isShare_ofDecimal {places digits : ℕ} (le : digits ≤ tenPow places) :
    IsShare (ofDecimal false digits (-places)) := by
  have size : (Nat.toDigits 10 digits).length ≤ places + 1 := by
    refine (Nat.length_toDigits_le_iff (by decide) places.succ_pos).mpr (le.trans_lt ?_)
    exact Nat.pow_lt_pow_right (by decide) places.lt_succ_self
  rw [ofDecimal]
  split
  · exact isShare_nearest (Nat.zero_le 1) Nat.one_pos
  · rw [if_neg (by omega)]
    split
    next whole =>
      obtain rfl : places = 0 := by omega
      rw [show tenPow (-((0 : ℕ) : ℤ)).toNat = 1 from rfl, Nat.mul_one]
      exact isShare_nearest le Nat.one_pos
    next part =>
      rw [neg_neg, Int.toNat_natCast]
      exact isShare_nearest le (Nat.pow_pos (by decide))

/-- The exact value of a share is a quotient of at most one. -/
theorem IsShare.ofFloat (share : IsShare x) : ∃ d, Kind.ofFloat x = .finite d ∧
    d.negative = false ∧ d.quotient.1 ≤ d.quotient.2 ∧ 0 < d.quotient.2 := by
  have quotient {mantissa : ℕ} {exponent : ℤ} (below : exponent < 0)
      (le : mantissa ≤ twoPow (-exponent).toNat) :
      let d : Dyadic := ⟨false, mantissa, exponent⟩
      d.quotient.1 ≤ d.quotient.2 ∧ 0 < d.quotient.2 := by
    simp only [Dyadic.quotient, if_neg below.not_ge]
    exact ⟨le, twoPow_pos _⟩
  rw [IsShare, twoPow_52] at share
  rw [Kind.ofFloat]
  generalize x.toBits.toNat = bits at share ⊢
  have unsigned : (bits / twoPow 63 == 1) = false := by
    rw [beq_eq_false_iff_ne, show twoPow 63 = 9223372036854775808 from rfl]
    omega
  have field : bits / 4503599627370496 % twoPow 11 = bits / 4503599627370496 := by
    rw [show twoPow 11 = 2048 from rfl]
    omega
  simp only [unsigned, twoPow_52, field]
  rw [if_neg (by simpa using by omega)]
  split
  · refine ⟨_, rfl, rfl, quotient (by decide) (le_trans ?_ (twoPow_le (by decide : 52 ≤ 1074)))⟩
    rw [twoPow_52]
    omega
  next normal =>
    refine ⟨_, rfl, rfl, quotient (by omega) ?_⟩
    -- At the exponent of one the fraction is zero; below it there is a bit to spare.
    rcases (show bits / 4503599627370496 ≤ 1023 by omega).lt_or_eq with less | same
    · refine le_trans ?_ (twoPow_le (show 53 ≤ _ by omega))
      rw [twoPow_53]
      omega
    · rw [same, show (-(((1023 : ℕ) : ℤ) - 1075)).toNat = 52 from rfl, twoPow_52]
      omega

/-- A share that is rounded to decimals is one still. -/
theorem isShare_roundTo {places : ℕ} (share : IsShare x) : IsShare (roundTo places x) := by
  obtain ⟨d, finite, sign, le, pos⟩ := share.ofFloat
  simp only [roundTo, finite, sign]
  refine isShare_ofDecimal (roundDiv_le ?_)
  rw [Nat.mul_comm]
  exact Nat.mul_le_mul_left _ le

end CodeAtlas.Number
