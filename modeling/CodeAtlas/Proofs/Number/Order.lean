import CodeAtlas.Number.Scalar
import Mathlib

/-!
# The order of floating-point numbers

All floating-point numbers but the one that is no number are ordered as integers are: first by sign
and kind, then by the exponent, then by the mantissa.
-/

namespace CodeAtlas.Number

open Float.Model (UnpackedFloat)

/-- It is a number, perhaps an infinite one. -/
def IsNumber (x : Float) : Prop :=
  x.toModel.unpack ≠ .notANumber

/-- Where something unpacked stands among all numbers. What is no number stands nowhere. -/
def standing : UnpackedFloat → ℤ ×ₗ ℤ ×ₗ ℤ
  | .infinity .positive => toLex (2, toLex (0, 0))
  | .infinity .negative => toLex (-2, toLex (0, 0))
  | .finite .positive mantissa exponent _ => toLex (1, toLex (exponent, (mantissa : ℤ)))
  | .finite .negative mantissa exponent _ => toLex (-1, toLex (-exponent, -(mantissa : ℤ)))
  | .zero _ | .notANumber => toLex (0, toLex (0, 0))

/-- Exponents decide before mantissas, and below zero the other way round. -/
private theorem then_compares (m m' : ℕ) (e e' : ℤ) :
    let o := (compare e e').then (compare m m')
    o.Compares (toLex (e, (m : ℤ))) (toLex (e', (m' : ℤ))) ∧
      o.swap.Compares (toLex (-e, -(m : ℤ))) (toLex (-e', -(m' : ℤ))) := by
  rcases lt_trichotomy e e' with less | rfl | more
  · simp [compare_lt_iff_lt.mpr less, Ordering.Compares, Prod.Lex.toLex_lt_toLex, less]
  · rcases lt_trichotomy m m' with less | rfl | more
    · simp [compare_lt_iff_lt.mpr less, Ordering.Compares, Prod.Lex.toLex_lt_toLex, less]
    · simp [Ordering.Compares]
    · simp [compare_gt_iff_gt.mpr more, Ordering.Compares, Prod.Lex.toLex_lt_toLex, more]
  · simp [compare_gt_iff_gt.mpr more, Ordering.Compares, Prod.Lex.toLex_lt_toLex, more]

private theorem compares_within {α β : Type} [LinearOrder α] [LinearOrder β] {o : Ordering}
    {x y : β} (first : α) (compares : o.Compares x y) :
    o.Compares (toLex (first, x)) (toLex (first, y)) := by
  cases o <;> simp_all [Ordering.Compares, Prod.Lex.toLex_lt_toLex]

/-- Numbers compare as their standings do. -/
theorem compare_standing {a b : UnpackedFloat} (number : a ≠ .notANumber)
    (number' : b ≠ .notANumber) :
    ∃ o : Ordering, a.compare b = some o ∧ o.Compares (standing a) (standing b) := by
  rcases a with (_ | _) | _ | (_ | _) | ⟨_ | _, m, e, _⟩ <;>
    rcases b with (_ | _) | _ | (_ | _) | ⟨_ | _, m', e', _⟩
  -- Only two finite numbers of one sign are told apart by more than sign and kind.
  case finite.negative.finite.negative =>
    exact ⟨_, rfl, compares_within _ (then_compares m m' e e').2⟩
  case finite.positive.finite.positive =>
    exact ⟨_, rfl, compares_within _ (then_compares m m' e e').1⟩
  case infinity.negative.infinity.negative => exact ⟨.eq, rfl, rfl⟩
  case infinity.positive.infinity.positive => exact ⟨.eq, rfl, rfl⟩
  case infinity.negative.infinity.positive =>
    exact ⟨.lt, rfl, by simp [standing, Ordering.Compares, Prod.Lex.toLex_lt_toLex]⟩
  case infinity.positive.infinity.negative =>
    exact ⟨.gt, rfl, by simp [standing, Ordering.Compares, Prod.Lex.toLex_lt_toLex]⟩
  all_goals first
    | exact absurd rfl number
    | exact absurd rfl number'
    | exact ⟨_, rfl, by simp [standing, Ordering.Compares, Prod.Lex.toLex_lt_toLex]⟩

/-! ### Comparisons -/

variable {x y z : Float}

/-- What compares with something is a number. -/
private theorem number_of_compare {a b : UnpackedFloat} {o : Ordering}
    (compared : a.compare b = some o) : a ≠ .notANumber ∧ b ≠ .notANumber := by
  constructor
  · rintro rfl
    cases compared
  · rintro rfl
    cases a <;> cases compared

theorem isNumber_of_lt (less : x < y) : IsNumber x ∧ IsNumber y := by
  have less : x.toModel.unpack.lt y.toModel.unpack = true := of_decide_eq_true less
  exact number_of_compare (eq_of_beq less)

theorem isNumber_of_le (less : x ≤ y) : IsNumber x ∧ IsNumber y := by
  have less : x.toModel.unpack.le y.toModel.unpack = true := of_decide_eq_true less
  rw [UnpackedFloat.le] at less
  cases compared : x.toModel.unpack.compare y.toModel.unpack with
  | none =>
    rw [compared] at less
    cases less
  | some o => exact number_of_compare compared

theorem IsNumber.lt_iff (number : IsNumber x) (number' : IsNumber y) :
    x < y ↔ standing x.toModel.unpack < standing y.toModel.unpack := by
  obtain ⟨o, compared, decided⟩ := compare_standing number number'
  have unfolded : x < y ↔ x.toModel.unpack.lt y.toModel.unpack = true := decide_eq_true_iff
  rw [unfolded, UnpackedFloat.lt, compared, ← decided.eq_lt]
  simp

theorem IsNumber.le_iff (number : IsNumber x) (number' : IsNumber y) :
    x ≤ y ↔ standing x.toModel.unpack ≤ standing y.toModel.unpack := by
  obtain ⟨o, compared, decided⟩ := compare_standing number number'
  have unfolded : x ≤ y ↔ x.toModel.unpack.le y.toModel.unpack = true := decide_eq_true_iff
  rw [unfolded, UnpackedFloat.le, compared, ← not_lt, ← decided.eq_gt]
  cases o <;> simp

theorem IsNumber.beq_iff (number : IsNumber x) (number' : IsNumber y) :
    (x == y) = true ↔ standing x.toModel.unpack = standing y.toModel.unpack := by
  obtain ⟨o, compared, decided⟩ := compare_standing number number'
  have unfolded : (x == y) = x.toModel.unpack.beq y.toModel.unpack := rfl
  rw [unfolded, UnpackedFloat.beq, compared, ← decided.eq_eq]
  simp

/-- Of two numbers one is not above the other. -/
theorem IsNumber.not_lt_iff (number : IsNumber x) (number' : IsNumber y) : ¬ x < y ↔ y ≤ x := by
  rw [number.lt_iff number', number'.le_iff number, not_lt]

theorem IsNumber.le_refl (number : IsNumber x) : x ≤ x := by
  rw [number.le_iff number]

theorem float_le_of_lt (less : x < y) : x ≤ y := by
  obtain ⟨number, number'⟩ := isNumber_of_lt less
  rw [number.lt_iff number'] at less
  exact (number.le_iff number').mpr less.le

theorem float_le_trans (first : x ≤ y) (second : y ≤ z) : x ≤ z := by
  obtain ⟨number, between⟩ := isNumber_of_le first
  obtain ⟨_, number'⟩ := isNumber_of_le second
  rw [number.le_iff between] at first
  rw [between.le_iff number'] at second
  exact (number.le_iff number').mpr (first.trans second)

/-! ### What stays a number -/

open Float.Model (Format)
open Float.Model.UnpackedFloat

theorem toNat_unpackExponent (b : BitVec 64) :
    (@unpackExponent Format.binary64 b).toNat = b.toNat / 2 ^ 52 % 2 ^ 11 := by
  simp only [unpackExponent, BitVec.toNat_cast, BitVec.extractLsb_toNat]
  rw [Nat.shiftRight_eq_div_pow]

theorem toNat_unpackMantissa (b : BitVec 64) :
    (@unpackMantissa Format.binary64 b).toNat = b.toNat % 2 ^ 52 := by
  simp only [unpackMantissa, BitVec.toNat_cast, BitVec.extractLsb_toNat]
  rw [Nat.shiftRight_zero]

theorem toNat_unpackSign (b : BitVec 64) :
    (@unpackSign Format.binary64 b).toNat = b.toNat / 2 ^ 63 := by
  simp only [unpackSign, BitVec.toNat_cast, BitVec.extractLsb_toNat]
  rw [Nat.shiftRight_eq_div_pow]
  have size : b.toNat < 2 ^ 64 := b.isLt
  show b.toNat / 2 ^ 63 % 2 ^ 1 = b.toNat / 2 ^ 63
  omega

/-- Bits whose exponent is not the highest are those of a number. -/
theorem unpack_ne_of_exponent {b : BitVec Format.binary64.numBits} (low : unpackExponent b ≠ -1#_) :
    unpack Format.binary64 b ≠ .notANumber := by
  simp only [unpack, low, if_false]
  split
  · split
    · intro same
      cases same
    · intro same
      cases same
  · intro same
    cases same

/-- What is packed stays a number, whether or not it was rounded before. -/
theorem unpack_pack_ne {a : UnpackedFloat} (number : a ≠ .notANumber) :
    unpack Format.binary64 (pack Format.binary64 a) ≠ .notANumber := by
  have infinite (sign : Sign) :
      unpack Format.binary64 (packedInfinity Format.binary64 sign) ≠ .notANumber := by
    simp only [unpack, packedInfinity, unpackExponent_packComponents,
      unpackMantissa_packComponents, if_true]
    split
    · intro same
      cases same
    next other => exact absurd rfl other
  have low {e : ℕ} (small : e + 1 < 2 ^ 11) : BitVec.ofNat 11 e ≠ -1#11 := by
    intro highest
    have same : e % 2 ^ 11 = 2047 := congrArg BitVec.toNat highest
    omega
  cases a with
  | notANumber => exact absurd rfl number
  | infinity sign => exact infinite sign
  | zero sign =>
    refine unpack_ne_of_exponent ?_
    rw [pack, packedZero, unpackExponent_packComponents]
    decide
  | finite sign mantissa exponent positive =>
    simp only [pack]
    split
    · exact infinite sign
    next small =>
      split
      · refine unpack_ne_of_exponent ?_
        rw [unpackExponent_packComponents]
        exact low (by omega)
      · refine unpack_ne_of_exponent ?_
        rw [unpackExponent_packComponents]
        decide

/-- A rounded product is zero or finite; only packing makes it infinite. -/
private theorem round_ne {sign : Sign} {mantissa : ℕ} {exponent : ℤ} {accuracy : Accuracy} :
    roundWithAccuracy Format.binary64 sign mantissa exponent accuracy ≠ .notANumber := by
  simp only [roundWithAccuracy]
  split
  · intro same
    cases same
  · intro same
    cases same

theorem isNumber_mul (finite : x.isFinite = true) (finite' : y.isFinite = true) :
    IsNumber (x * y) := by
  refine unpack_pack_ne ?_
  have finite : x.toModel.unpack.isFinite = true := finite
  have finite' : y.toModel.unpack.isFinite = true := finite'
  generalize x.toModel.unpack = a at finite ⊢
  generalize y.toModel.unpack = b at finite' ⊢
  -- The product of finite numbers is rounded, unless one of them is zero.
  cases a <;> cases finite <;> cases b <;> cases finite' <;>
    first
    | exact round_ne
    | intro same
      cases same

/-- A product of positive numbers, which may be infinite. -/
theorem isNumber_mul_of_pos (positive : 0 < x) (positive' : 0 < y) : IsNumber (x * y) := by
  refine unpack_pack_ne ?_
  have above {z : Float} (positive : 0 < z) : z.toModel.unpack = .infinity .positive ∨
      ∃ m e h, z.toModel.unpack = .finite .positive m e h := by
    have positive : UnpackedFloat.lt (.zero .positive) z.toModel.unpack = true :=
      of_decide_eq_true positive
    generalize z.toModel.unpack = a at positive ⊢
    rcases a with (_ | _) | _ | (_ | _) | ⟨_ | _, m, e, h⟩ <;> cases positive
    · exact .inl rfl
    · exact .inr ⟨m, e, h, rfl⟩
  rcases above positive with a | ⟨m, e, h, a⟩ <;> rcases above positive' with b | ⟨m', e', h', b⟩ <;>
    rw [a, b] <;>
    first
    | exact round_ne
    | intro same
      cases same

theorem isNumber_of_isFinite (finite : x.isFinite = true) : IsNumber x := by
  intro none_
  have finite : x.toModel.unpack.isFinite = true := finite
  rw [none_] at finite
  cases finite

theorem isFinite_of_between (low high : Float) (least : low.isFinite = true)
    (most : high.isFinite = true) (above : low ≤ x) (below : x ≤ high) : x.isFinite = true := by
  have least : low.toModel.unpack.isFinite = true := least
  have most : high.toModel.unpack.isFinite = true := most
  have above : low.toModel.unpack.le x.toModel.unpack = true := of_decide_eq_true above
  have below : x.toModel.unpack.le high.toModel.unpack = true := of_decide_eq_true below
  show x.toModel.unpack.isFinite = true
  generalize low.toModel.unpack = a at least above
  generalize high.toModel.unpack = b at most below
  generalize x.toModel.unpack = z at above below ⊢
  rcases z with (_ | _) | _ | _ | _
  · cases a <;> cases least <;> cases above
  · cases b <;> cases most <;> cases below
  · cases b <;> cases most <;> cases below
  · rfl
  · rfl

/-! ### Rounding -/

/-- Bits whose exponent field is not the last one are those of a number. -/
theorem unpackExponent_ne {bits : ℕ} (low : bits / twoPow 52 % twoPow 11 ≠ 2047) :
    @unpackExponent Format.binary64 (UInt64.ofNat bits).toBitVec ≠ -1#_ := by
  intro highest
  have same : bits % 2 ^ 64 / 2 ^ 52 % 2 ^ 11 = 2047 :=
    (toNat_unpackExponent _).symm.trans (congrArg BitVec.toNat highest)
  refine low ?_
  show bits / 2 ^ 52 % 2 ^ 11 = 2047
  omega

theorem isNumber_ofBits {bits : ℕ} (low : bits / twoPow 52 % twoPow 11 ≠ 2047) :
    IsNumber (Float.ofBits (UInt64.ofNat bits)) :=
  unpack_pack_ne (unpack_ne_of_exponent (unpackExponent_ne low))

/-- A number keeps the bits it is made of. -/
theorem toBits_ofBits {bits : ℕ} (low : bits / twoPow 52 % twoPow 11 ≠ 2047) :
    (Float.ofBits (.ofNat bits)).toBits = .ofNat bits := by
  have number : @isNaNBits Format.binary64 (UInt64.ofNat bits).toBitVec = false :=
    decide_eq_false fun ⟨highest, _⟩ => unpackExponent_ne low highest
  have same : (Float.ofBits (.ofNat bits)).toBits.toBitVec = _ :=
    @pack_unpack Format.binary64 (UInt64.ofNat bits).toBitVec (by decide)
  rw [number] at same
  exact UInt64.toBitVec_inj.mp same

theorem isNumber_infinity {negative : Bool} : IsNumber (infinity negative) := by
  cases negative
  · intro same
    cases same
  · intro same
    cases same

theorem isNumber_nearest? {negative : Bool} {num den : ℕ}
    (found : nearest? negative num den = some x) : IsNumber x := by
  -- The sign stands above the exponent and leaves it as it is.
  have low (bits : ℕ) (small : bits < 2047 * twoPow 52) :
      ((if negative then twoPow 63 else 0) + bits) / twoPow 52 % twoPow 11 ≠ 2047 := by
    have small : bits < 2047 * 2 ^ 52 := small
    cases negative
    · show (0 + bits) / 2 ^ 52 % 2 ^ 11 ≠ 2047
      omega
    · show (2 ^ 63 + bits) / 2 ^ 52 % 2 ^ 11 ≠ 2047
      omega
  simp only [nearest?] at found
  by_cases zero : num = 0
  · rw [zero, beq_self_eq_true, if_pos rfl, Option.some.injEq] at found
    exact found ▸ isNumber_ofBits (low 0 (by decide))
  · rw [beq_eq_false_iff_ne.mpr zero, if_neg Bool.false_ne_true, Option.ite_none_right_eq_some,
      Option.some.injEq] at found
    obtain ⟨small, rfl⟩ := found
    exact isNumber_ofBits (low _ small)

theorem isNumber_nearest {negative : Bool} {num den : ℕ} : IsNumber (nearest negative num den) := by
  rw [nearest]
  cases found : nearest? negative num den with
  | none => exact isNumber_infinity
  | some x => exact isNumber_nearest? found

theorem isNumber_ofDecimal {negative : Bool} {digits : ℕ} {exponent : ℤ} :
    IsNumber (ofDecimal negative digits exponent) := by
  simp only [ofDecimal]
  split
  · exact isNumber_nearest
  · split
    · exact isNumber_infinity
    · split
      · exact isNumber_nearest
      · exact isNumber_nearest

theorem isNumber_roundTo {places : ℕ} (number : IsNumber x) : IsNumber (roundTo places x) := by
  simp only [roundTo]
  split
  · exact isNumber_ofDecimal
  · exact number

/-! ### Bits without a sign -/

/-- Where bits without a sign stand: by their exponent field, then by their fraction. The lowest
field has the exponent of the one above it. -/
def unsignedStanding (bits : ℕ) : ℤ ×ₗ ℤ ×ₗ ℤ :=
  if bits = 0 then toLex (0, toLex (0, 0))
  else if bits < 2 ^ 52 then toLex (1, toLex (-1074, (bits : ℤ)))
  else toLex (1, toLex ((bits / 2 ^ 52 : ℕ) - 1075, ((2 ^ 52 + bits % 2 ^ 52 : ℕ) : ℤ)))

theorem standing_unpack {b : BitVec 64} (small : b.toNat < 2047 * 2 ^ 52) :
    unpack Format.binary64 b ≠ .notANumber ∧
      standing (unpack Format.binary64 b) = unsignedStanding b.toNat := by
  have field : (@unpackExponent Format.binary64 b).toNat = b.toNat / 2 ^ 52 := by
    rw [toNat_unpackExponent]
    omega
  have fraction := toNat_unpackMantissa b
  have sign : @unpackSign Format.binary64 b = 0#1 := by
    refine BitVec.eq_of_toNat_eq ((toNat_unpackSign b).trans ?_)
    show b.toNat / 2 ^ 63 = 0
    omega
  have notLast : @unpackExponent Format.binary64 b ≠ -1#_ := by
    intro highest
    have same : b.toNat / 2 ^ 52 = 2047 := field ▸ congrArg BitVec.toNat highest
    omega
  refine ⟨unpack_ne_of_exponent notLast, ?_⟩
  have whole : (1#1 ++ @unpackMantissa Format.binary64 b).toNat = 2 ^ 52 + b.toNat % 2 ^ 52 := by
    rw [BitVec.toNat_append, ← fraction]
    exact (Nat.two_pow_add_eq_or_of_lt (@unpackMantissa Format.binary64 b).isLt 1).symm
  simp only [unpack, sign, notLast, if_false, unsignedStanding]
  split
  next first =>
    have first : b.toNat / 2 ^ 52 = 0 := field ▸ congrArg BitVec.toNat first
    split
    next zero =>
      have zero : b.toNat % 2 ^ 52 = 0 := fraction ▸ congrArg BitVec.toNat zero
      rw [if_pos (by omega)]
      rfl
    next nonzero =>
      have nonzero : b.toNat ≠ 0 := by
        intro zero
        refine nonzero (BitVec.eq_of_toNat_eq ?_)
        rw [fraction, zero]
        rfl
      rw [if_neg nonzero, if_pos (by omega)]
      show toLex (1, toLex (_, _)) = toLex (1, toLex (_, _))
      rw [field, fraction, first, Nat.mod_eq_of_lt (by omega)]
      rfl
  next notFirst =>
    have notFirst : b.toNat / 2 ^ 52 ≠ 0 := by
      intro zero
      refine notFirst (BitVec.eq_of_toNat_eq ?_)
      rw [field, zero]
      rfl
    rw [if_neg (by omega), if_neg (by omega)]
    show toLex (1, toLex (_, _)) = toLex (1, toLex (_, _))
    rw [field, whole]
    rfl

/-- Without a sign numbers are ordered as their bits are. -/
theorem float_le_of_bits (small : y.toBits.toNat < 2047 * twoPow 52)
    (le : x.toBits.toNat ≤ y.toBits.toNat) : x ≤ y := by
  have le : x.toBits.toBitVec.toNat ≤ y.toBits.toBitVec.toNat := le
  have small : y.toBits.toBitVec.toNat < 2047 * 2 ^ 52 := small
  obtain ⟨number, first⟩ := standing_unpack (le.trans_lt small)
  obtain ⟨number', second⟩ := standing_unpack small
  have number : IsNumber x := number
  rw [number.le_iff number']
  show standing (unpack Format.binary64 x.toBits.toBitVec) ≤
    standing (unpack Format.binary64 y.toBits.toBitVec)
  rw [first, second, unsignedStanding, unsignedStanding]
  generalize x.toBits.toBitVec.toNat = m at le ⊢
  generalize y.toBits.toBitVec.toNat = n at le ⊢
  split_ifs <;> simp [Prod.Lex.toLex_le_toLex] <;> omega

/-! ### Whole numbers as a caller gave them -/

namespace Scalar

theorem whole_lt_whole {m n : ℤ} : whole m < whole n ↔ m < n := by
  show (compare m n).isLT = true ↔ m < n
  rw [Ordering.isLT_iff_eq_lt, compare_lt_iff_lt]

theorem whole_le_whole {m n : ℤ} : whole m ≤ whole n ↔ m ≤ n := by
  show (compare m n).isLE = true ↔ m ≤ n
  rw [Int.isLE_compare]

end Scalar

end CodeAtlas.Number
