import CodeAtlas.Number.Shortest
import CodeAtlas.Proofs.Number.Digits
import CodeAtlas.Proofs.Number.Rounding

/-!
# The shortest decimal of a floating-point number

Of every positive floating-point number there is a decimal of at most seventeen digits that rounds
to it, so the search for the shortest one ends with such a decimal.

## Main results

`Dyadic.covers_shortest`: the decimal that is found rounds to the number.
`Decimal.exists_significant`: what is written of it are its digits and the place of its point.

## Proof strategy

The neighbour on the grid of seventeen digits is less than half a grid step away from the number,
and half a step is less than the narrowest half unit of the format: `10 ^ 16` is more than `2 ^ 52`.
-/

namespace CodeAtlas.Number

/-- The number that a decimal writes. -/
def Decimal.value (x : Decimal) : ℚ :=
  x.digits * 10 ^ x.exponent

/-! ### The decimal exponent -/

/-- A positive number of so many digits. -/
theorem toDigits_bounds {n : ℕ} (pos : 0 < n) :
    10 ^ ((Nat.toDigits 10 n).length - 1) ≤ n ∧ n < 10 ^ (Nat.toDigits 10 n).length := by
  have some_ : 0 < (Nat.toDigits 10 n).length := Nat.length_toDigits_pos
  refine ⟨?_, (Nat.length_toDigits_le_iff (by decide) some_).mp le_rfl⟩
  by_contra less
  rcases Nat.eq_zero_or_pos ((Nat.toDigits 10 n).length - 1) with none_ | more
  · rw [none_] at less
    omega
  · have := (Nat.length_toDigits_le_iff (by decide) more).mpr (not_le.mp less)
    omega

/-- A decimal with a positive number of so many digits. -/
theorem decimal_bounds {n : ℕ} (pos : 0 < n) (exponent : ℤ) :
    (10 : ℚ) ^ (((Nat.toDigits 10 n).length : ℤ) - 1 + exponent) ≤ n * 10 ^ exponent ∧
      (n : ℚ) * 10 ^ exponent < 10 ^ (((Nat.toDigits 10 n).length : ℤ) + exponent) := by
  have some_ : 0 < (Nat.toDigits 10 n).length := Nat.length_toDigits_pos
  have unit : (0 : ℚ) < 10 ^ exponent := by positivity
  obtain ⟨low, high⟩ := toDigits_bounds pos
  generalize (Nat.toDigits 10 n).length = size at *
  rw [zpow_add₀ (by norm_num), zpow_add₀ (by norm_num),
    show (size : ℤ) - 1 = (size - 1 : ℕ) by omega, zpow_natCast, zpow_natCast]
  exact ⟨mul_le_mul_of_nonneg_right (by exact_mod_cast low) unit.le,
    mul_lt_mul_of_pos_right (by exact_mod_cast high) unit⟩

/-- The decimal exponent of a quotient is the largest power of ten up to it. -/
theorem decimalExponent_bounds {num den : ℕ} (num_pos : 0 < num) (den_pos : 0 < den) :
    (10 : ℚ) ^ decimalExponent num den ≤ (num : ℚ) / den ∧
      (num : ℚ) / den < 10 ^ (decimalExponent num den + 1) := by
  have pos : (0 : ℚ) < den := by exact_mod_cast den_pos
  have pos' : (0 : ℚ) < num := by exact_mod_cast num_pos
  rw [decimalExponent]
  split
  next whole =>
    have some_ : 0 < (Nat.toDigits 10 (num / den)).length := Nat.length_toDigits_pos
    obtain ⟨low, high⟩ := toDigits_bounds (Nat.div_pos whole den_pos)
    generalize (Nat.toDigits 10 (num / den)).length = count at *
    rw [Nat.le_div_iff_mul_le den_pos] at low
    rw [Nat.div_lt_iff_lt_mul den_pos] at high
    rw [sub_add_cancel, show (count : ℤ) - 1 = (count - 1 : ℕ) by omega, zpow_natCast, zpow_natCast,
      le_div_iff₀ pos, div_lt_iff₀ pos]
    exact ⟨by exact_mod_cast low, by exact_mod_cast high⟩
  next part =>
    have less : num ≤ den := by omega
    have some_ : 0 < (Nat.toDigits 10 (den / num)).length := Nat.length_toDigits_pos
    obtain ⟨low, high⟩ := toDigits_bounds (Nat.div_pos less num_pos)
    simp only
    obtain ⟨guess, guess_eq⟩ : ∃ guess, (Nat.toDigits 10 (den / num)).length = guess + 1 :=
      ⟨_, (Nat.succ_pred_eq_of_pos some_).symm⟩
    rw [guess_eq] at low high ⊢
    rw [Nat.add_sub_cancel] at low ⊢
    rw [Nat.le_div_iff_mul_le num_pos] at low
    rw [Nat.div_lt_iff_lt_mul num_pos] at high
    have low : (10 : ℚ) ^ guess * num ≤ den := by exact_mod_cast low
    have high : (den : ℚ) < 10 ^ (guess + 1) * num := by exact_mod_cast high
    have power (k : ℕ) : (10 : ℚ) ^ (-(k : ℤ)) = 1 / 10 ^ k := by
      rw [zpow_neg, zpow_natCast, one_div]
    -- The guess is reached or missed by one.
    split
    next reached =>
      have reached : (den : ℚ) ≤ num * 10 ^ guess := by
        have : den ≤ num * 10 ^ guess := reached
        exact_mod_cast this
      rw [zpow_add₀ (by norm_num), power, div_le_div_iff₀ (by positivity) pos,
        div_mul_eq_mul_div, div_lt_div_iff₀ pos (by positivity)]
      exact ⟨by linarith, by rw [zpow_one]; nlinarith⟩
    next missed =>
      have missed : (num : ℚ) * 10 ^ guess < den := by
        have : num * 10 ^ guess < den := not_le.mp missed
        exact_mod_cast this
      rw [show -((guess : ℤ) + 1) + 1 = -guess by ring,
        show -((guess : ℤ) + 1) = -((guess + 1 : ℕ) : ℤ) by push_cast; ring, power, power,
        div_le_div_iff₀ (by positivity) pos, div_lt_div_iff₀ pos (by positivity)]
      exact ⟨by linarith, by linarith⟩

/-! ### The interval of a number -/

/-- A decimal lies in an interval as its value does. -/
theorem Interval.holds_iff {i : Interval} (pos : 0 < i.den) (x : Decimal) :
    i.holds x = true ↔
      if i.closed then (i.low : ℚ) / i.den ≤ x.value ∧ x.value ≤ (i.high : ℚ) / i.den
      else (i.low : ℚ) / i.den < x.value ∧ x.value < (i.high : ℚ) / i.den := by
  have den : (0 : ℚ) < i.den := by exact_mod_cast pos
  have unit (n : ℕ) : (0 : ℚ) < tenPow n := by
    rw [cast_tenPow]
    positivity
  rw [Interval.holds, Decimal.value, ten_zpow]
  split_ifs with whole closed closed
  · simp only [Bool.and_eq_true, decide_eq_true_eq, Nat.mul_one]
    rw [div_le_iff₀ den, le_div_iff₀ den]
    exact and_congr (by exact_mod_cast Iff.rfl) (by exact_mod_cast Iff.rfl)
  · simp only [Bool.and_eq_true, decide_eq_true_eq, Nat.mul_one]
    rw [div_lt_iff₀ den, lt_div_iff₀ den]
    exact and_congr (by exact_mod_cast Iff.rfl) (by exact_mod_cast Iff.rfl)
  · simp only [Bool.and_eq_true, decide_eq_true_eq]
    rw [mul_one_div, div_le_div_iff₀ den (unit _), div_le_div_iff₀ (unit _) den]
    exact and_congr (by exact_mod_cast Iff.rfl) (by exact_mod_cast Iff.rfl)
  · simp only [Bool.and_eq_true, decide_eq_true_eq]
    rw [mul_one_div, div_lt_div_iff₀ den (unit _), div_lt_div_iff₀ (unit _) den]
    exact and_congr (by exact_mod_cast Iff.rfl) (by exact_mod_cast Iff.rfl)

namespace Dyadic

variable {d : Dyadic}

/-- A unit of the number as a quotient of natural numbers. -/
theorem quotient_unit (e : ℤ) :
    0 < (quotient ⟨false, 1, e⟩).1 ∧ 0 < (quotient ⟨false, 1, e⟩).2 ∧
      (((quotient ⟨false, 1, e⟩).1 : ℕ) : ℚ) / ((quotient ⟨false, 1, e⟩).2 : ℕ) = 2 ^ e := by
  rw [two_zpow, quotient]
  split <;> simp [twoPow_pos]

theorem interval_den_pos (d : Dyadic) : 0 < d.interval.den :=
  Nat.mul_pos (by decide) (quotient_unit d.exponent).2.1

/-- The decimals in the interval of a number are those that it covers. -/
theorem holds_interval_iff (nonzero : d.mantissa ≠ 0) (x : Decimal) :
    d.interval.holds x = true ↔ d.Covers x.value := by
  obtain ⟨-, den_pos, unit⟩ := quotient_unit d.exponent
  have den : (((quotient ⟨false, 1, d.exponent⟩).2 : ℕ) : ℚ) ≠ 0 := by exact_mod_cast den_pos.ne'
  -- Both ends, measured in units.
  have low :
      ((d.interval.low : ℕ) : ℚ) / d.interval.den = (d.mantissa - d.reach) * 2 ^ d.exponent := by
    have sub (k : ℕ) (le : k ≤ 2) : ((4 * d.mantissa - k : ℕ) : ℚ) = 4 * d.mantissa - k := by
      rw [Nat.cast_sub (by omega)]
      push_cast
      rfl
    rw [← unit, interval]
    simp only [Nat.cast_mul]
    rw [show d.reach = ((if d.isNarrow then 1 else 2 : ℕ) : ℚ) / 4 by
      rw [reach]; split <;> norm_num]
    rw [show (d.mantissa == twoPow 52 && decide (-1074 < d.exponent)) = d.isNarrow from rfl,
      sub _ (by split <;> omega)]
    push_cast
    field_simp
  have high :
      ((d.interval.high : ℕ) : ℚ) / d.interval.den = (d.mantissa + 1 / 2) * 2 ^ d.exponent := by
    rw [← unit, interval]
    push_cast
    field_simp
    ring
  rw [Interval.holds_iff d.interval_den_pos, low, high]
  have parity : d.interval.closed = (d.mantissa % 2 == 0) := rfl
  rw [parity]
  by_cases even : d.mantissa % 2 = 0
  · rw [if_pos (by simpa using even)]
    exact ⟨fun ends => ⟨ends.1, ends.2, fun odd => absurd odd (by omega)⟩,
      fun covers => ⟨covers.low, covers.high⟩⟩
  · rw [if_neg (by simpa using even)]
    exact ⟨fun ends => ⟨ends.1.le, ends.2.le, fun _ => ends⟩, fun covers => covers.odd (by omega)⟩

/-- Half a step of a grid of seventeen digits stays inside the interval. -/
theorem covers_of_near (canonical : d.Canonical) (nonzero : d.mantissa ≠ 0) {v step : ℚ}
    (small : step * 10 ^ 16 ≤ d.magnitude) (below : d.magnitude - step / 2 ≤ v)
    (above : v ≤ d.magnitude + step / 2) : d.Covers v := by
  have unit : (0 : ℚ) < 2 ^ d.exponent := by positivity
  rw [magnitude] at small below above
  have pos : (0 : ℚ) < d.mantissa := by exact_mod_cast Nat.pos_of_ne_zero nonzero
  have fits : (d.mantissa : ℚ) < 2 ^ 53 := by
    have : d.mantissa < 2 ^ 53 := canonical.fits
    exact_mod_cast this
  -- Half a step, in units.
  have half : step / 2 < 1 / 2 * 2 ^ d.exponent := by
    have : (d.mantissa : ℚ) * 2 ^ d.exponent < 10 ^ 16 * 2 ^ d.exponent :=
      mul_lt_mul_of_pos_right (by norm_num at fits ⊢; linarith) unit
    linarith
  have narrow : step / 2 < d.reach * 2 ^ d.exponent := by
    rw [reach]
    split
    next isNarrow =>
      have even : (d.mantissa : ℚ) = 2 ^ 52 := by
        simp only [Dyadic.isNarrow, Bool.and_eq_true, beq_iff_eq] at isNarrow
        rw [isNarrow.1, cast_twoPow]
      rw [even] at small
      norm_num at small
      linarith
    next => exact half
  refine ⟨by linarith, by linarith, fun _ => ⟨by linarith, by linarith⟩⟩

end Dyadic

/-! ### The search -/

theorem Interval.holds_of_mem_neighbours {i : Interval} {e : ℤ} {x : Decimal}
    (mem : x ∈ i.neighbours e) : i.holds x = true :=
  (List.mem_filter.mp mem).2

/-- The value in an interval, measured in steps of a grid. -/
theorem Interval.exists_steps {i : Interval} (pos : 0 < i.den) (e : ℤ) : ∃ num den,
    (if 0 ≤ e then (i.value, i.den * tenPow e.toNat)
      else (i.value * tenPow (-e).toNat, i.den)) = (num, den) ∧ 0 < den ∧
    (num : ℚ) / den * 10 ^ e = (i.value : ℚ) / i.den := by
  have den : (0 : ℚ) < i.den := by exact_mod_cast pos
  have power (n : ℕ) : 0 < tenPow n := Nat.pow_pos (by decide)
  have power' (n : ℕ) : (tenPow n : ℚ) ≠ 0 := by exact_mod_cast (power n).ne'
  rw [ten_zpow]
  split
  · refine ⟨_, _, rfl, Nat.mul_pos pos (power _), ?_⟩
    have := power' e.toNat
    push_cast
    field_simp
  · refine ⟨_, _, rfl, pos, ?_⟩
    have := power' (-e).toNat
    push_cast
    field_simp

/-- When everything within half a step lies in an interval, it has a neighbour on the grid. -/
theorem Interval.neighbours_ne_nil {i : Interval} (pos : 0 < i.den) {e : ℤ}
    (near : ∀ x : Decimal, (i.value : ℚ) / i.den - 10 ^ e / 2 ≤ x.value →
      x.value ≤ (i.value : ℚ) / i.den + 10 ^ e / 2 → i.holds x = true) : i.neighbours e ≠ [] := by
  have unit : (0 : ℚ) < 10 ^ e := by positivity
  simp only [neighbours]
  obtain ⟨num, den, both, den_pos, scaled⟩ := exists_steps pos e
  rw [both]
  simp only
  have den_pos' : (0 : ℚ) < den := by exact_mod_cast den_pos
  have parts : den * (num / den) + num % den = num := Nat.div_add_mod num den
  have parts' : (num : ℚ) / den = (num / den : ℕ) + ((num % den : ℕ) : ℚ) / den := by
    field_simp
    exact_mod_cast parts.symm
  have inside (c : ℕ) (low : (num : ℚ) / den - 1 / 2 ≤ c) (high : (c : ℚ) ≤ num / den + 1 / 2) :
      i.holds ⟨c, e⟩ = true := by
    refine near _ ?_ ?_
    · rw [← scaled, Decimal.value]
      nlinarith
    · rw [← scaled, Decimal.value]
      nlinarith
  have small : ((num % den : ℕ) : ℚ) < den := by exact_mod_cast Nat.mod_lt _ den_pos
  split
  next first =>
    have le : 2 * (num % den) ≤ den := by
      simp only [Bool.or_eq_true, decide_eq_true_eq, Bool.and_eq_true, beq_iff_eq] at first
      omega
    have le : ((num % den : ℕ) : ℚ) / den ≤ 1 / 2 := by
      rw [div_le_div_iff₀ den_pos' two_pos]
      exact_mod_cast (by omega : num % den * 2 ≤ 1 * den)
    have nonneg : (0 : ℚ) ≤ ((num % den : ℕ) : ℚ) / den := by positivity
    have holds := inside (num / den) (by linarith) (by linarith)
    simp [holds]
  next second =>
    have ge : den ≤ 2 * (num % den) := by
      simp only [Bool.or_eq_true, decide_eq_true_eq, Bool.and_eq_true, beq_iff_eq] at second
      omega
    have ge : 1 / 2 ≤ ((num % den : ℕ) : ℚ) / den := by
      rw [div_le_div_iff₀ two_pos den_pos']
      exact_mod_cast (by omega : 1 * den ≤ num % den * 2)
    have less : ((num % den : ℕ) : ℚ) / den < 1 := by rwa [div_lt_one den_pos']
    have holds := inside (num / den + 1) (by push_cast; linarith) (by push_cast; linarith)
    simp [holds]

/-- The shortest decimal of a number rounds to it. -/
theorem Dyadic.covers_shortest {d : Dyadic} (canonical : d.Canonical) (nonzero : d.mantissa ≠ 0) :
    d.Covers d.shortest.value := by
  have den_pos := d.interval_den_pos
  obtain ⟨unit_pos, -, unit⟩ := quotient_unit d.exponent
  have value : ((d.interval.value : ℕ) : ℚ) / d.interval.den = d.magnitude := by
    have den : (((quotient ⟨false, 1, d.exponent⟩).2 : ℕ) : ℚ) ≠ 0 := by
      exact_mod_cast (quotient_unit d.exponent).2.1.ne'
    rw [magnitude, ← unit, interval]
    push_cast
    field_simp
  have value_pos : 0 < d.interval.value :=
    Nat.mul_pos (Nat.mul_pos (by decide) (Nat.pos_of_ne_zero nonzero)) unit_pos
  obtain ⟨top, -⟩ := decimalExponent_bounds value_pos den_pos
  rw [value] at top
  rw [← holds_interval_iff nonzero, shortest]
  generalize decimalExponent d.interval.value d.interval.den = exponent at top ⊢
  -- Whatever is found lies in the interval, and on the last grid something is found.
  cases found : (List.range 17).findSome? fun (extra : ℕ) =>
      (d.interval.neighbours (exponent - extra)).head? with
  | some x =>
    obtain ⟨extra, -, first⟩ := List.exists_of_findSome?_eq_some found
    exact Interval.holds_of_mem_neighbours (List.mem_of_mem_head? first)
  | none =>
    have none_ := List.findSome?_eq_none_iff.mp found 16 (by decide)
    refine absurd (List.head?_eq_none_iff.mp none_) (Interval.neighbours_ne_nil den_pos ?_)
    intro x low high
    rw [value] at low high
    refine (holds_interval_iff nonzero x).mpr (covers_of_near canonical nonzero ?_ low high)
    refine le_trans (le_of_eq ?_) top
    rw [← zpow_natCast (10 : ℚ) 16, ← zpow_add₀ (by norm_num)]
    congr 1
    push_cast
    ring

theorem Dyadic.shortest_digits_ne_zero {d : Dyadic} (canonical : d.Canonical)
    (nonzero : d.mantissa ≠ 0) : d.shortest.digits ≠ 0 := by
  intro zero
  have pos := (covers_shortest canonical nonzero).pos nonzero
  rw [Decimal.value, zero, Nat.cast_zero, zero_mul] at pos
  exact lt_irrefl _ pos

/-! ### The digits that are written -/

/-- The digits of a positive number do not start with a zero. -/
theorem head?_toDigits_ne {n : ℕ} (pos : 0 < n) : (Nat.toDigits 10 n).head? ≠ some '0' := by
  intro zero
  obtain ⟨rest, digits⟩ : ∃ rest, Nat.toDigits 10 n = '0' :: rest := List.head?_eq_some_iff.mp zero
  have value := digitsValue_toDigits n
  rw [digits, show '0' :: rest = List.replicate 1 '0' ++ rest from rfl,
    digitsValue_zeros_append] at value
  have areDigits : AreDigits rest := fun c mem =>
    areDigits_toDigits n c (digits ▸ List.mem_cons_of_mem _ mem)
  have less : n < 10 ^ rest.length := value ▸ digitsValue_lt areDigits
  have low := (toDigits_bounds pos).1
  rw [digits, List.length_cons, Nat.add_sub_cancel] at low
  omega

/-- Of a positive decimal its digits without the zeros at the end are written, and where the point
stands. -/
theorem Decimal.exists_significant {x : Decimal} (pos : x.digits ≠ 0) :
    ∃ kept point, x.significant = (kept, point) ∧ AreDigits kept ∧ kept ≠ [] ∧
      kept.head? ≠ some '0' ∧ x.value = digitsValue kept * 10 ^ (point - kept.length) := by
  have head := head?_toDigits_ne (Nat.pos_of_ne_zero pos)
  have value := digitsValue_toDigits x.digits
  have areDigits := areDigits_toDigits x.digits
  refine ⟨_, _, rfl, ?_⟩
  generalize Nat.toDigits 10 x.digits = ds at head value areDigits ⊢
  -- The digits end in the zeros that are left out.
  obtain ⟨count, whole⟩ : ∃ count,
      ds = (ds.reverse.dropWhile (· == '0')).reverse ++ List.replicate count '0' := by
    refine ⟨(ds.reverse.takeWhile (· == '0')).length, ?_⟩
    have zeros : ds.reverse.takeWhile (· == '0') =
        List.replicate (ds.reverse.takeWhile (· == '0')).length '0' :=
      List.eq_replicate_of_mem fun c mem => by
        simpa using List.all_eq_true.mp List.all_takeWhile c mem
    conv_lhs => rw [← ds.reverse_reverse, ← List.takeWhile_append_dropWhile (p := (· == '0'))
      (l := ds.reverse), List.reverse_append, zeros, List.reverse_replicate]
  generalize (ds.reverse.dropWhile (· == '0')).reverse = kept at whole ⊢
  have filled : kept ≠ [] := by
    rintro rfl
    cases count with
    | zero => exact pos (by rw [← value, whole]; rfl)
    | succ count => exact head (by rw [whole]; rfl)
  refine ⟨fun c mem => areDigits c (whole ▸ List.mem_append_left _ mem), filled, ?_, ?_⟩
  · obtain ⟨c, kept, rfl⟩ := List.exists_cons_of_ne_nil filled
    rw [whole] at head
    exact head
  · rw [Decimal.value, ← value, whole, digitsValue_append_zeros, List.length_append,
      List.length_replicate]
    push_cast
    rw [cast_tenPow, mul_assoc, ← zpow_natCast (10 : ℚ) count, ← zpow_add₀ (by norm_num)]
    congr 2
    ring

end CodeAtlas.Number
