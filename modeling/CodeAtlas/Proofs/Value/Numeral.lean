import CodeAtlas.Proofs.Number.Order
import CodeAtlas.Proofs.Number.Shortest
import CodeAtlas.Value.Json

/-!
# Numbers in JSON text

A whole number is written by its digits, a finite floating-point number by the shortest decimal that
rounds to it, with a point or an exponent. Read back each is the number that was written.

## Main results

`number?_toString` and `number?_shortest`, whatever follows the number without carrying it on.

## Proof strategy

The text of a floating-point number has one of four shapes. Each is a whole part, a fraction and an
exponent that make up the same decimal (`exists_body`); the decimal rounds to the number because it
lies in its interval (`ofDecimal_of_covers`).
-/

namespace CodeAtlas

open Number Float.Model.UnpackedFloat
open Float.Model (Format)

/-! ### Fields of a floating-point number -/

namespace Number

/-- The sign, the exponent and the fraction make up the bits. -/
theorem bits_eq {bits : ℕ} (size : bits < 2 ^ 64) :
    (if (bits / twoPow 63 == 1) = true then twoPow 63 else 0) +
      (bits / twoPow 52 % twoPow 11 * twoPow 52 + bits % twoPow 52) = bits := by
  rw [show twoPow 63 = 9223372036854775808 from rfl, twoPow_52, show twoPow 11 = 2048 from rfl]
  split
  next one =>
    rw [beq_iff_eq] at one
    omega
  next zero =>
    rw [beq_iff_eq] at zero
    omega

/-- A finite floating-point number is made of the fields that are read off it. -/
theorem Kind.ofFloat_eq_finite {x : Float} {d : Dyadic} (finite : Kind.ofFloat x = .finite d) :
    d.Canonical ∧
      x = .ofBits (.ofNat ((if d.negative then twoPow 63 else 0) + d.fields)) := by
  have size : x.toBits.toNat < 2 ^ 64 := x.toBits.toNat_lt
  have whole : x = .ofBits (.ofNat x.toBits.toNat) := by
    rw [UInt64.ofNat_toNat, Float.ofBits_toBits]
  rw [whole]
  rw [Kind.ofFloat] at finite
  generalize x.toBits.toNat = bits at finite size ⊢
  have parts := bits_eq size
  have few : bits / twoPow 52 % twoPow 11 < 2048 := Nat.mod_lt _ (by decide)
  have small : bits % twoPow 52 < twoPow 52 := Nat.mod_lt _ (by decide)
  generalize bits / twoPow 52 % twoPow 11 = field at finite parts few
  generalize bits % twoPow 52 = fraction at finite parts small
  generalize (bits / twoPow 63 == 1) = negative at finite parts
  rw [twoPow_52] at small
  split at finite
  · split at finite <;> cases finite
  next notLast =>
    rw [beq_iff_eq] at notLast
    split at finite
    next first =>
      rw [beq_iff_eq] at first
      cases finite
      refine ⟨⟨by simp, by simp, ?_, fun _ => rfl⟩, ?_⟩
      · simp only [twoPow_53]
        omega
      · rw [← parts, first, Nat.zero_mul, Nat.zero_add]
        simp [Dyadic.fields]
    next notFirst =>
      rw [beq_iff_eq] at notFirst
      cases finite
      refine ⟨⟨?_, ?_, ?_, ?_⟩, ?_⟩
      · simp only
        omega
      · simp only
        omega
      · simp only [twoPow_52, twoPow_53]
        omega
      · simp only [twoPow_52]
        omega
      · have same : Dyadic.fields ⟨negative, twoPow 52 + fraction, (field : ℤ) - 1075⟩ =
            field * twoPow 52 + fraction := by
          simp only [Dyadic.fields, twoPow_52]
          omega
        rw [same, parts]

theorem Kind.exists_finite {x : Float} (finite : x.isFinite = true) :
    ∃ d, Kind.ofFloat x = .finite d := by
  have low : @unpackExponent Format.binary64 x.toBits.toBitVec ≠ -1#_ := by
    intro highest
    have finite : (unpack Format.binary64 x.toBits.toBitVec).isFinite = true := finite
    rw [unpack] at finite
    simp only [highest, if_true] at finite
    split at finite <;> cases finite
  have field : x.toBits.toNat / twoPow 52 % twoPow 11 ≠ 2047 := by
    intro highest
    exact low (BitVec.eq_of_toNat_eq ((toNat_unpackExponent _).trans highest))
  rw [Kind.ofFloat, if_neg (by simpa using field)]
  split
  · exact ⟨_, rfl⟩
  · exact ⟨_, rfl⟩

/-! ### Decimals -/

/-- A decimal that a floating-point number covers rounds to it; none of them is far outside the
range of the format. -/
theorem ofDecimal_of_covers {d : Dyadic} (canonical : d.Canonical) (nonzero : d.mantissa ≠ 0)
    {digits : ℕ} {exponent : ℤ} (covers : d.Covers (digits * 10 ^ exponent)) (negative : Bool) :
    ofDecimal negative digits exponent =
      .ofBits (.ofNat ((if negative then twoPow 63 else 0) + d.fields)) := by
  have v_pos := covers.pos nonzero
  have pos : 0 < digits := by
    by_contra zero
    simp [Nat.eq_zero_of_not_pos zero] at v_pos
  have nearest_eq {num den : ℕ} (den_pos : 0 < den)
      (same : (digits : ℚ) * 10 ^ exponent = (num : ℚ) / den) : nearest negative num den =
        .ofBits (.ofNat ((if negative then twoPow 63 else 0) + d.fields)) := by
    rw [nearest, nearest?_of_covers canonical nonzero den_pos (same ▸ covers) negative,
      Option.getD_some]
  obtain ⟨more, less⟩ := decimal_bounds pos exponent
  rw [ofDecimal]
  generalize (Nat.toDigits 10 digits).length = size at *
  have notSmall : ¬ (size : ℤ) + exponent < -400 := by
    intro small
    have tiny : (10 : ℚ) ^ ((size : ℤ) + exponent) ≤ 10 ^ (-400 : ℤ) :=
      zpow_le_zpow_right₀ (by norm_num) small.le
    exact absurd (less.trans_le tiny) (covers.gt canonical nonzero).not_gt
  have notLarge : ¬ 400 < (size : ℤ) + exponent := by
    intro large
    have huge : (10 : ℚ) ^ (400 : ℤ) ≤ 10 ^ ((size : ℤ) - 1 + exponent) :=
      zpow_le_zpow_right₀ (by norm_num) (by omega)
    exact absurd (huge.trans more) (covers.lt canonical).not_ge
  simp only [pos.ne', beq_iff_eq, decide_eq_true_eq, notSmall, notLarge, Bool.or_eq_true, or_self,
    if_false]
  have power (n : ℕ) : 0 < tenPow n := Nat.pow_pos (by decide)
  split
  next whole =>
    refine nearest_eq one_pos ?_
    rw [ten_zpow, if_pos whole]
    push_cast
    rw [div_one]
  next part =>
    refine nearest_eq (power _) ?_
    rw [ten_zpow, if_neg part, mul_one_div]

end Number

namespace Json

/-- What follows a number does not carry it on. -/
def EndsNumber (rest : List Char) : Prop :=
  ∀ c ∈ rest.head?, c.isDigit = false ∧ c ≠ '.' ∧ c ≠ 'e' ∧ c ≠ 'E'

/-- The digits in front of a point: no zero in front of others. -/
structure IsWhole (ds : List Char) : Prop where
  areDigits : AreDigits ds
  filled : ds ≠ []
  zero : ds.head? = some '0' → ds = ['0']

theorem EndsNumber.stopsDigits {rest : List Char} (ends : EndsNumber rest) : StopsDigits rest :=
  fun c mem => (ends c mem).1

/-- Nothing that follows a number is an exponent. -/
theorem EndsNumber.exponent {rest : List Char} (ends : EndsNumber rest) :
    exponent rest = (none, rest) := by
  cases rest with
  | nil => rfl
  | cons c rest =>
    obtain ⟨-, -, lower, upper⟩ := ends c rfl
    simp [Number.exponent, lower, upper]

variable {negative : Bool} {whole fraction tail rest : List Char} {power : Option ℤ}

/-- A whole part is read up to its end. -/
theorem IsWhole.read (isWhole : IsWhole whole) (stops : StopsDigits tail) :
    digits (whole ++ tail) = (whole, tail) ∧
      (if whole.head? == some '0' then ['0'] else whole) = whole ∧
      (if whole == ['0'] then (whole ++ tail).drop 1 else tail) = tail := by
  refine ⟨digits_append isWhole.areDigits stops, ?_⟩
  by_cases zero : whole.head? = some '0'
  · rw [isWhole.zero zero]
    exact ⟨rfl, rfl⟩
  · have other : whole ≠ ['0'] := fun same => zero (by rw [same]; rfl)
    rw [if_neg (by simpa using zero), if_neg (by simpa using other)]
    exact ⟨rfl, rfl⟩

/-- A whole part and a fraction, perhaps with an exponent, are read as a decimal. -/
theorem magnitude?_fraction (isWhole : IsWhole whole) (areDigits : AreDigits fraction)
    (filled : fraction ≠ []) (stops : StopsDigits tail) (exponent : exponent tail = (power, rest)) :
    magnitude? negative (whole ++ '.' :: (fraction ++ tail)) =
      some (.real (ofDecimal negative (digitsValue (whole ++ fraction))
        (power.getD 0 - fraction.length)), rest) := by
  have stop : StopsDigits ('.' :: (fraction ++ tail)) := stopsDigits_cons rfl
  obtain ⟨read, same, after⟩ := isWhole.read stop
  simp only [magnitude?, read, same, after, digits_append areDigits stops]
  simp [isWhole.filled, filled, exponent]

/-- A whole part with an exponent is read as a decimal. -/
theorem magnitude?_power {p : ℤ} (isWhole : IsWhole whole) (stops : StopsDigits tail)
    (noPoint : tail.head? ≠ some '.') (exponent : exponent tail = (some p, rest)) :
    magnitude? negative (whole ++ tail) =
      some (.real (ofDecimal negative (digitsValue whole) p), rest) := by
  obtain ⟨read, same, after⟩ := isWhole.read stops
  simp only [magnitude?, read, same, after]
  rw [if_neg (by simpa using isWhole.filled)]
  split
  next more => exact absurd rfl noPoint
  next => simp [exponent]

/-- A whole part alone is read as a whole number. -/
theorem magnitude?_whole (isWhole : IsWhole whole) (ends : EndsNumber rest) :
    magnitude? negative (whole ++ rest) =
      some (.int (if negative then -(digitsValue whole : ℤ) else digitsValue whole), rest) := by
  obtain ⟨read, same, after⟩ := isWhole.read ends.stopsDigits
  simp only [magnitude?, read, same, after]
  rw [if_neg (by simpa using isWhole.filled)]
  split
  next more => exact absurd rfl (ends '.' rfl).2.1
  next => simp [ends.exponent]

/-! ### Floating-point numbers -/

/-- A text is read as the decimal of a value, whatever follows it. -/
structure ReadsAs (negative : Bool) (body : List Char) (v : ℚ) : Prop where
  starts : ∃ c more, body = c :: more ∧ c.isDigit = true
  reads : ∃ (digits : ℕ) (exponent : ℤ), (digits : ℚ) * 10 ^ exponent = v ∧
    ∀ rest, EndsNumber rest → magnitude? negative (body ++ rest) =
      some (.real (ofDecimal negative digits exponent), rest)

theorem IsWhole.starts (isWhole : IsWhole whole) (tail : List Char) :
    ∃ c more, whole ++ tail = c :: more ∧ c.isDigit = true := by
  obtain ⟨c, more, rfl⟩ := List.exists_cons_of_ne_nil isWhole.filled
  exact ⟨c, more ++ tail, rfl, isWhole.areDigits c List.mem_cons_self⟩

/-- A whole part and a fraction. -/
theorem readsAs_fraction (negative : Bool) (isWhole : IsWhole whole)
    (areDigits : AreDigits fraction) (filled : fraction ≠ []) :
    ReadsAs negative (whole ++ '.' :: fraction)
      (digitsValue (whole ++ fraction) * 10 ^ (-(fraction.length : ℤ))) where
  starts := isWhole.starts _
  reads := by
    refine ⟨_, _, rfl, fun rest ends => ?_⟩
    rw [List.append_assoc, List.cons_append,
      magnitude?_fraction isWhole areDigits filled ends.stopsDigits ends.exponent]
    simp

/-- The text of a power of ten. -/
def powerText (p : ℤ) : List Char :=
  'e' :: (if p < 0 then '-' else '+') :: (paddedDigits 2 p.natAbs).toList

theorem exponent_powerText (p : ℤ) (ends : EndsNumber rest) :
    exponent (powerText p ++ rest) = (some p, rest) := by
  have read := digits_append (areDigits_paddedDigits 2 p.natAbs) ends.stopsDigits
  have filled := paddedDigits_ne_nil 2 p.natAbs
  have value := digitsValue_paddedDigits 2 p.natAbs
  rw [powerText, List.cons_append, List.cons_append]
  by_cases negative : p < 0
  · have size : -(p.natAbs : ℤ) = p := by omega
    rw [if_pos negative, exponent]
    simp only [signed, read, value, size, List.isEmpty_eq_false_iff.mpr filled]
    rfl
  · have size : (p.natAbs : ℤ) = p := by omega
    rw [if_neg negative, exponent]
    simp only [signed, read, value, size, List.isEmpty_eq_false_iff.mpr filled]
    rfl

/-- One digit and an exponent. -/
theorem readsAs_power (negative : Bool) (isWhole : IsWhole whole) (p : ℤ) :
    ReadsAs negative (whole ++ powerText p) (digitsValue whole * 10 ^ p) where
  starts := isWhole.starts _
  reads := by
    refine ⟨digitsValue whole, p, rfl, fun rest ends => ?_⟩
    rw [List.append_assoc]
    exact magnitude?_power isWhole (stopsDigits_cons rfl) (by simp [powerText])
      (exponent_powerText p ends)

/-- A whole part, a fraction and an exponent. -/
theorem readsAs_fraction_power (negative : Bool) (isWhole : IsWhole whole)
    (areDigits : AreDigits fraction) (filled : fraction ≠ []) (p : ℤ) :
    ReadsAs negative (whole ++ '.' :: (fraction ++ powerText p))
      (digitsValue (whole ++ fraction) * 10 ^ (p - fraction.length)) where
  starts := isWhole.starts _
  reads := by
    refine ⟨digitsValue (whole ++ fraction), p - fraction.length, rfl, fun rest ends => ?_⟩
    have stops : StopsDigits (powerText p ++ rest) := stopsDigits_cons rfl
    rw [List.append_assoc, List.cons_append, List.append_assoc,
      magnitude?_fraction isWhole areDigits filled stops (exponent_powerText p ends),
      Option.getD_some]

/-- Digits of a positive number without zeros at either end of it that say nothing. -/
structure Significant (kept : List Char) : Prop where
  areDigits : AreDigits kept
  filled : kept ≠ []
  head : kept.head? ≠ some '0'

namespace Significant

variable {kept : List Char} (significant : Significant kept) (negative : Bool)

include significant

/-- A zero, a point, zeros and the digits. -/
theorem readsAs_small (count : ℕ) :
    ReadsAs negative (['0'] ++ '.' :: (List.replicate count '0' ++ kept))
      (digitsValue kept * 10 ^ (-(count : ℤ) - kept.length)) := by
  have zero : IsWhole ['0'] := ⟨by simp [AreDigits], by simp, fun _ => rfl⟩
  have read := readsAs_fraction negative zero
    ((areDigits_zeros count).append significant.areDigits)
    (List.append_ne_nil_of_right_ne_nil _ significant.filled)
  have value : digitsValue (['0'] ++ (List.replicate count '0' ++ kept)) = digitsValue kept := by
    rw [show ['0'] = List.replicate 1 '0' from rfl, digitsValue_zeros_append,
      digitsValue_zeros_append]
  rwa [value, List.length_append, List.length_replicate, Nat.cast_add, neg_add'] at read

/-- The digits, zeros, a point and a zero. -/
theorem readsAs_whole (count : ℕ) :
    ReadsAs negative ((kept ++ List.replicate count '0') ++ '.' :: ['0'])
      (digitsValue kept * 10 ^ (count : ℤ)) := by
  have zeros : IsWhole (kept ++ List.replicate count '0') := by
    refine ⟨significant.areDigits.append (areDigits_zeros count), ?_, fun zero => ?_⟩
    · exact List.append_ne_nil_of_left_ne_nil significant.filled _
    · rw [List.head?_append_of_ne_nil _ significant.filled] at zero
      exact absurd zero significant.head
  have read := readsAs_fraction negative zeros
    (show AreDigits ['0'] by simp [AreDigits]) (by simp)
  have value : digitsValue (kept ++ List.replicate count '0' ++ ['0']) =
      digitsValue kept * tenPow count * 10 := by
    rw [digitsValue_append, digitsValue_append_zeros]
    rfl
  rw [value, List.length_singleton] at read
  convert read using 1
  push_cast
  rw [cast_tenPow, zpow_natCast, zpow_neg_one]
  ring

/-- The digits with a point among them. -/
theorem readsAs_between {count : ℕ} (pos : 0 < count) (less : count < kept.length) :
    ReadsAs negative (kept.take count ++ '.' :: kept.drop count)
      (digitsValue kept * 10 ^ ((count : ℤ) - kept.length)) := by
  have split : kept.take count ++ kept.drop count = kept := List.take_append_drop _ _
  have front : kept.take count ≠ [] := by
    simp only [ne_eq, List.take_eq_nil_iff, significant.filled, or_false]
    omega
  have isWhole : IsWhole (kept.take count) := by
    refine ⟨fun c mem => significant.areDigits c (List.mem_of_mem_take mem), front, fun zero => ?_⟩
    have head := significant.head
    rw [← split, List.head?_append_of_ne_nil _ front] at head
    exact absurd zero head
  have read := readsAs_fraction negative isWhole
    (fun c mem => significant.areDigits c (List.mem_of_mem_drop mem))
    (show kept.drop count ≠ [] by simp only [ne_eq, List.drop_eq_nil_iff]; omega)
  rwa [split, List.length_drop, Nat.cast_sub less.le, neg_sub] at read

/-- One digit, perhaps a point and the others, and an exponent. -/
theorem readsAs_scientific (p : ℤ) :
    ∃ c more, kept = c :: more ∧
      ReadsAs negative (c :: ((if more = [] then [] else '.' :: more) ++ powerText p))
        (digitsValue kept * 10 ^ (p + 1 - kept.length)) := by
  obtain ⟨c, more, rfl⟩ := List.exists_cons_of_ne_nil significant.filled
  refine ⟨c, more, rfl, ?_⟩
  have one : IsWhole [c] := by
    refine ⟨fun x mem => ?_, by simp, fun zero => absurd zero significant.head⟩
    rw [List.mem_singleton.mp mem]
    exact significant.areDigits c List.mem_cons_self
  rw [List.length_cons, Nat.cast_add_one, add_sub_add_right_eq_sub]
  by_cases alone : more = []
  · subst alone
    simpa using readsAs_power negative one p
  · have read := readsAs_fraction_power negative one
      (fun x mem => significant.areDigits x (List.mem_cons_of_mem c mem)) alone p
    rwa [if_neg alone]

end Significant

/-- The text of a sign. -/
def signText (negative : Bool) : List Char :=
  if negative then ['-'] else []

/-- Digits and a point are written so that they read back as what they stand for. -/
theorem exists_body {kept : List Char} (significant : Significant kept) (negative : Bool)
    (point : ℤ) : ∃ body, (plain.write negative kept point).toList = signText negative ++ body ∧
      ReadsAs negative body (digitsValue kept * 10 ^ (point - kept.length)) := by
  have sign : (if negative then "-" else "").toList = signText negative := by
    cases negative <;> rfl
  simp only [FloatStyle.write]
  by_cases positional :
      (decide (plain.leastPoint ≤ point) && decide (point ≤ plain.mostPoint)) = true
  · rw [if_pos positional]
    by_cases small : point ≤ 0
    · obtain ⟨count, rfl⟩ : ∃ count : ℕ, point = -(count : ℤ) := ⟨(-point).toNat, by omega⟩
      refine ⟨_, ?_, significant.readsAs_small negative count⟩
      rw [if_pos small]
      simp [sign]
    · rw [if_neg small]
      by_cases whole : (kept.length : ℤ) ≤ point
      · obtain ⟨count, rfl⟩ : ∃ count : ℕ, point = kept.length + count :=
          ⟨(point - kept.length).toNat, by omega⟩
        refine ⟨_, ?_, by simpa using significant.readsAs_whole negative count⟩
        rw [if_pos whole]
        simp [sign, plain]
      · obtain ⟨count, rfl⟩ : ∃ count : ℕ, point = count := ⟨point.toNat, by omega⟩
        refine ⟨_, ?_, significant.readsAs_between negative (show 0 < count by omega) (by omega)⟩
        rw [if_neg whole]
        simp [sign]
  · rw [if_neg positional]
    obtain ⟨c, more, rfl, read⟩ := significant.readsAs_scientific negative (point - 1)
    rw [sub_add_cancel] at read
    refine ⟨_, ?_, read⟩
    have mark (below : Prop) [Decidable below] :
        (if below then "e-" else "e+").toList = ['e', if below then '-' else '+'] := by
      split <;> rfl
    cases more with
    | nil => simp [sign, powerText, mark, plain]
    | cons c' more => simp [sign, powerText, mark, plain]

theorem isPrefixOf_of_ne {x c : Char} (ne : c ≠ x) (word rest : List Char) :
    (x :: word).isPrefixOf (c :: rest) = false := by
  rw [List.isPrefixOf, beq_eq_false_iff_ne.mpr (Ne.symm ne), Bool.false_and]

/-- Before a digit only a sign is looked for. -/
theorem number?_signText (negative : Bool) {c : Char} (digit : c.isDigit = true)
    (rest : List Char) : number? (signText negative ++ c :: rest) =
      magnitude? negative (c :: rest) := by
  have ne (x : Char) (no : x.isDigit = false) : c ≠ x := by
    rintro rfl
    exact absurd (no.symm.trans digit) (by decide)
  unfold number?
  cases negative with
  | true =>
    have noNaN : "NaN".toList.isPrefixOf ('-' :: c :: rest) = false := rfl
    have noPlus : "Infinity".toList.isPrefixOf ('-' :: c :: rest) = false := rfl
    have noMinus : "-Infinity".toList.isPrefixOf ('-' :: c :: rest) = false :=
      isPrefixOf_of_ne (ne 'I' rfl) "nfinity".toList rest
    simp only [signText, if_true, List.singleton_append, noNaN, noPlus, noMinus,
      Bool.false_eq_true, if_false, Option.none_or]
  | false =>
    have noNaN : "NaN".toList.isPrefixOf (c :: rest) = false :=
      isPrefixOf_of_ne (ne 'N' rfl) "aN".toList rest
    have noPlus : "Infinity".toList.isPrefixOf (c :: rest) = false :=
      isPrefixOf_of_ne (ne 'I' rfl) "nfinity".toList rest
    have noMinus : "-Infinity".toList.isPrefixOf (c :: rest) = false :=
      isPrefixOf_of_ne (ne '-' rfl) "Infinity".toList rest
    simp only [signText, Bool.false_eq_true, if_false, List.nil_append, noNaN, noPlus, noMinus,
      Option.none_or]
    split
    next same =>
      rw [(List.cons.inj same).1] at digit
      cases digit
    next => rfl

/-- A finite floating-point number is read from its shortest text. -/
theorem number?_shortest {x : Float} (finite : x.isFinite = true) (ends : EndsNumber rest) :
    number? ((plain.shortest x).toList ++ rest) = some (.real x, rest) := by
  obtain ⟨d, kind⟩ := Kind.exists_finite finite
  obtain ⟨canonical, same⟩ := Kind.ofFloat_eq_finite kind
  -- A sign and a body that is read as a decimal which rounds to the number.
  obtain ⟨body, v, text, ⟨⟨c, more, starts, digit⟩, digits, exponent, value, reads⟩, rounds⟩ :
      ∃ body v, (plain.shortest x).toList = signText d.negative ++ body ∧
        ReadsAs d.negative body v ∧ ∀ (digits : ℕ) (exponent : ℤ),
          (digits : ℚ) * 10 ^ exponent = v → ofDecimal d.negative digits exponent = x := by
    simp only [FloatStyle.shortest, kind]
    by_cases zero : d.mantissa = 0
    · refine ⟨['0'] ++ '.' :: ['0'], _, ?_,
        readsAs_fraction d.negative ⟨by simp [AreDigits], by simp, fun _ => rfl⟩
          (show AreDigits ['0'] by simp [AreDigits]) (by simp), ?_⟩
      · rw [if_pos (by simpa using zero)]
        cases d.negative <;> rfl
      · intro digits exponent value
        have none_ : digits = 0 := by
          have power : (10 : ℚ) ^ exponent ≠ 0 := zpow_ne_zero _ (by norm_num)
          simpa [digitsValue, power] using value
        have least : d.exponent = -1074 := canonical.normal (by rw [zero, twoPow_52]; decide)
        rw [none_, same, Dyadic.fields, zero, least]
        simp [ofDecimal, nearest, nearest?]
    · obtain ⟨kept, point, significant, areDigits, filled, head, value⟩ :=
        Decimal.exists_significant (d.shortest_digits_ne_zero canonical zero)
      rw [if_neg (by simpa using zero), significant]
      obtain ⟨body, text, reads⟩ := exists_body ⟨areDigits, filled, head⟩ d.negative point
      refine ⟨body, _, text, reads, fun digits exponent equal => ?_⟩
      rw [← value] at equal
      have covers := d.covers_shortest canonical zero
      rw [← equal] at covers
      rw [ofDecimal_of_covers canonical zero covers, ← same]
  rw [text, List.append_assoc]
  have reads := reads rest ends
  rw [rounds digits exponent value] at reads
  rw [starts, List.cons_append] at reads ⊢
  rw [number?_signText d.negative digit, reads]

/-- A whole number is read from its digits. -/
theorem number?_toString (n : ℤ) (ends : EndsNumber rest) :
    number? ((toString n).toList ++ rest) = some (.int n, rest) := by
  obtain ⟨text, value⟩ : (toString n).toList =
      signText (decide (n < 0)) ++ Nat.toDigits 10 n.natAbs ∧
      (if decide (n < 0) then -(n.natAbs : ℤ) else n.natAbs) = n := by
    cases n with
    | ofNat n => exact ⟨String.toList_ofList, rfl⟩
    | negSucc n =>
      rw [decide_eq_true (Int.negSucc_lt_zero n)]
      refine ⟨?_, rfl⟩
      show ("-" ++ Nat.repr (n + 1)).toList = _
      rw [String.toList_append]
      exact congrArg ('-' :: ·) String.toList_ofList
  have isWhole : IsWhole (Nat.toDigits 10 n.natAbs) := by
    refine ⟨areDigits_toDigits _, Nat.toDigits_ne_nil, fun zero => ?_⟩
    obtain none_ | pos := Nat.eq_zero_or_pos n.natAbs
    · rw [none_]
      rfl
    · exact absurd zero (head?_toDigits_ne pos)
  obtain ⟨c, more, starts, digit⟩ := isWhole.starts rest
  have reads : magnitude? (decide (n < 0)) _ = _ := magnitude?_whole isWhole ends
  rw [starts] at reads
  rw [text, List.append_assoc, starts, number?_signText _ digit, reads, digitsValue_toDigits, value]

end Json

end CodeAtlas
