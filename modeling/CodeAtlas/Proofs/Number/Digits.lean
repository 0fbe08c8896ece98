import CodeAtlas.Number.Reading
import Mathlib.Data.List.Induction
import Mathlib.Tactic.Common

/-!
# Numbers in decimal digits

What digits write is read off them again, with zeros in front of them, behind them or between them.

## Main results

`digitsValue_toDigits`, `digitsValue_paddedDigits`: digits write the number that they are made of.
`digits_append`: digits are read up to the first character that is none.
-/

namespace CodeAtlas.Number

/-- Digits and nothing else. -/
def AreDigits (ds : List Char) : Prop :=
  ∀ c ∈ ds, c.isDigit = true

/-- A text does not go on with a digit. -/
def StopsDigits (rest : List Char) : Prop :=
  ∀ c ∈ rest.head?, c.isDigit = false

theorem AreDigits.append {ds ds' : List Char} (first : AreDigits ds) (second : AreDigits ds') :
    AreDigits (ds ++ ds') :=
  List.forall_mem_append.mpr ⟨first, second⟩

theorem areDigits_zeros (count : Nat) : AreDigits (List.replicate count '0') := by
  intro c mem
  rw [List.eq_of_mem_replicate mem]
  rfl

theorem areDigits_toDigits (n : Nat) : AreDigits (Nat.toDigits 10 n) := fun _ mem =>
  Nat.isDigit_of_mem_toDigits (by decide) (by decide) mem

theorem stopsDigits_cons {c : Char} {rest : List Char} (stop : c.isDigit = false) :
    StopsDigits (c :: rest) := by
  rintro _ ⟨⟩
  exact stop

/-- Digits are read up to the first character that is none. -/
theorem digits_append {ds rest : List Char} (areDigits : AreDigits ds) (stops : StopsDigits rest) :
    digits (ds ++ rest) = (ds, rest) := by
  have taken : rest.takeWhile Char.isDigit = [] ∧ rest.dropWhile Char.isDigit = rest := by
    cases rest with
    | nil => exact ⟨rfl, rfl⟩
    | cons c rest => simp [stops c rfl]
  rw [digits, List.takeWhile_append_of_pos areDigits, List.dropWhile_append_of_pos areDigits,
    taken.1, taken.2, List.append_nil]

/-! ### What digits write -/

theorem digitsValue_eq (ds : List Char) : digitsValue ds = Nat.ofDigitChars 10 ds 0 := by
  rw [digitsValue, Nat.ofDigitChars_eq_foldl]
  simp only [Nat.mul_comm]

theorem digitsValue_toDigits (n : Nat) : digitsValue (Nat.toDigits 10 n) = n := by
  rw [digitsValue_eq, Nat.ofDigitChars_ten_toDigits]

theorem digitsValue_append (ds ds' : List Char) :
    digitsValue (ds ++ ds') = digitsValue ds * tenPow ds'.length + digitsValue ds' := by
  simp only [digitsValue_eq, Nat.ofDigitChars_append]
  rw [Nat.ofDigitChars_eq_ofDigitChars_zero, Nat.mul_comm]
  rfl

theorem digitsValue_zeros (count : Nat) : digitsValue (List.replicate count '0') = 0 := by
  induction count with
  | zero => rfl
  | succ count ih =>
    rw [List.replicate_succ', digitsValue_append, ih]
    rfl

/-- Zeros in front do not count. -/
theorem digitsValue_zeros_append (count : Nat) (ds : List Char) :
    digitsValue (List.replicate count '0' ++ ds) = digitsValue ds := by
  rw [digitsValue_append, digitsValue_zeros, Nat.zero_mul, Nat.zero_add]

/-- Every zero behind counts ten times. -/
theorem digitsValue_append_zeros (ds : List Char) (count : Nat) :
    digitsValue (ds ++ List.replicate count '0') = digitsValue ds * tenPow count := by
  rw [digitsValue_append, digitsValue_zeros, Nat.add_zero, List.length_replicate]

theorem digitsValue_lt {ds : List Char} (areDigits : AreDigits ds) :
    digitsValue ds < tenPow ds.length := by
  induction ds using List.reverseRecOn with
  | nil => decide
  | append_singleton ds c ih =>
    have last : digitsValue [c] < 10 := by
      have digit := areDigits c (by simp)
      simp only [Char.isDigit, Bool.and_eq_true, decide_eq_true_eq] at digit
      simp only [digitsValue, List.foldl_cons, List.foldl_nil]
      have upper : c.toNat ≤ 57 := digit.2
      have zero : '0'.toNat = 48 := rfl
      omega
    have before := ih fun x mem => areDigits x (List.mem_append_left _ mem)
    have split : tenPow (ds ++ [c]).length = tenPow ds.length * 10 := by
      rw [List.length_append]
      exact Nat.pow_succ 10 ds.length
    rw [digitsValue_append, split]
    show _ * 10 + _ < _
    omega

/-! ### Padded digits -/

theorem toList_paddedDigits (width n : Nat) : (paddedDigits width n).toList =
    List.replicate (width - (Nat.toDigits 10 n).length) '0' ++ Nat.toDigits 10 n :=
  String.toList_ofList

theorem areDigits_paddedDigits (width n : Nat) : AreDigits (paddedDigits width n).toList := by
  rw [toList_paddedDigits]
  exact (areDigits_zeros _).append (areDigits_toDigits n)

theorem digitsValue_paddedDigits (width n : Nat) :
    digitsValue (paddedDigits width n).toList = n := by
  rw [toList_paddedDigits, digitsValue_zeros_append, digitsValue_toDigits]

theorem length_paddedDigits {width n : Nat} (pos : 0 < width) (fits : n < tenPow width) :
    (paddedDigits width n).toList.length = width := by
  have short : (Nat.toDigits 10 n).length ≤ width :=
    (Nat.length_toDigits_le_iff (by decide) pos).mpr fits
  rw [toList_paddedDigits, List.length_append, List.length_replicate]
  omega

theorem paddedDigits_ne_nil (width n : Nat) : (paddedDigits width n).toList ≠ [] := by
  rw [toList_paddedDigits]
  exact List.append_ne_nil_of_right_ne_nil _ Nat.toDigits_ne_nil

end CodeAtlas.Number
