import CodeAtlas.Proofs.Number.Digits
import CodeAtlas.Value.Moment
import Mathlib.Data.String.Basic
import Mathlib.Order.Monotone.Basic
import Mathlib.Tactic.IntervalCases
import Mathlib.Tactic.SplitIfs

/-!
# Points in time

A point in universal time is exchanged with a `Z` at its end and stored with the offset `+00:00`.
Read back either text is the point in time that was written.

A clock counts microseconds from 1970. What it shows in the years from 1 to 9999 is a point in
universal time that is written with four digits of the year.

Stored texts are ordered by what is written in them. For universal time that is the order of the
points themselves, although a fraction is written only when there is one.

## Main results

`parse?_text` and `parse?_storedText`, and `Decode.time_text` for a value that is read.
`isUtc_ofMicros` for what a clock shows, and `toMicros_ofMicros`: it is the time of the clock.
`storedText_lt_iff` and `storedText_le_iff` for the order.

## Proof strategy

The parts of a text are padded to their width, so each is read where the one before it ends; what
stands for universal time starts neither a digit nor a fraction.

Days are counted in cycles of 400 years that start in March, so that a leap day is the last day of
its year. Less the leap days before it a day of a cycle lies in the year that it is divided into
(`yearOf_day`): the count never falls, and it is right at the first and the last day of each of the
400 years. The months follow from the day of the year alone (`day_le`). So a day has a place in its
cycle and its year (`exists_cycle`), by which its date is possible and is counted back to the day.

Both orders are compared with a third, `Earlier`, which goes through the fields of two points from
the year on. In the texts every field but the last is padded to its width, so the first field that
differs decides; a missing fraction shows as the sign of the offset, which is less than a point.
In microseconds the first field that differs outweighs those after it, the date because a month ends
before the next begins (`dayNumber_lt`).
-/

namespace CodeAtlas

/-! ## In writing -/

open Number

namespace Timestamp

/-- A possible date and time of day in universal time. -/
structure IsUtc (t : Timestamp) : Prop where
  valid : t.isValid = true
  year_pos : 1 ≤ t.year
  year_le : t.year ≤ 9999
  micro_lt : t.micro < 1000000
  offset : t.offset = some 0

/-! ### Parts of a text -/

theorem digits?_paddedDigits {width n : Nat} (pos : 0 < width) (fits : n < tenPow width)
    (rest : List Char) :
    digits? width ((paddedDigits width n).toList ++ rest) = some (n, rest) := by
  have size := length_paddedDigits pos fits
  have all : (paddedDigits width n).toList.all Char.isDigit = true :=
    List.all_eq_true.mpr (areDigits_paddedDigits width n)
  have value : (paddedDigits width n).toList.foldl
      (fun n c => n * 10 + (c.toNat - '0'.toNat)) 0 = n := digitsValue_paddedDigits width n
  rw [digits?, List.take_left' size, List.drop_left' size, all, value, size]
  simp

/-- A number of two digits is read. -/
theorem digits?_two {n : Nat} (fits : n < 100) (rest : List Char) :
    digits? 2 ((two n).toList ++ rest) = some (n, rest) :=
  digits?_paddedDigits (by decide) fits rest

/-- What stands for no offset from universal time. -/
structure EndsUtc (tail : List Char) : Prop where
  starts : ∃ c more, tail = c :: more ∧ c.isDigit = false ∧ c ≠ '.' ∧ c ≠ ','
  reads : offset? tail = some (some 0)

theorem endsUtc_letter : EndsUtc ['Z'] :=
  ⟨⟨'Z', [], rfl, by decide⟩, rfl⟩

theorem endsUtc_offset : EndsUtc (offsetText 0).toList :=
  ⟨⟨'+', ['0', '0', ':', '0', '0'], by decide, by decide⟩, by decide⟩

/-- Seconds and their fraction in writing. -/
theorem seconds?_append {second micro : Nat} (second_lt : second < 100)
    (micro_lt : micro < 1000000) {tail : List Char} (ends : EndsUtc tail) :
    seconds? (':' :: ((two second).toList ++
      ((if micro = 0 then "" else "." ++ paddedDigits 6 micro).toList ++ tail))) =
        some (second, micro, tail) := by
  obtain ⟨⟨c, more, rfl, noDigit, noPoint, noComma⟩, -⟩ := ends
  simp only [seconds?, digits?_two second_lt, Option.bind_eq_bind, Option.bind_some]
  by_cases none_ : micro = 0
  · rw [if_pos none_, none_]
    simp [noPoint, noComma]
  · have stops : StopsDigits (c :: more) := stopsDigits_cons noDigit
    obtain ⟨taken, dropped⟩ := Prod.ext_iff.mp
      (digits_append (areDigits_paddedDigits 6 micro) stops)
    have size := length_paddedDigits (by decide) (show micro < tenPow 6 from micro_lt)
    have read := digits?_paddedDigits (by decide) (show micro < tenPow 6 from micro_lt) []
    rw [List.append_nil] at read
    have filled := List.isEmpty_eq_false_iff.mpr (paddedDigits_ne_nil 6 micro)
    have point : ".".toList = ['.'] := rfl
    simp only [digits] at taken dropped
    rw [if_neg none_, String.toList_append, point]
    simp only [List.cons_append, List.nil_append, beq_self_eq_true, Bool.true_or, if_true, taken,
      dropped, filled, Bool.false_eq_true, if_false, List.take_left' size, read, Option.bind_some,
      Option.pure_def]

/-! ### Whole texts -/

variable {t : Timestamp}

theorem IsUtc.bounds (utc : t.IsUtc) : t.year < 10000 ∧ t.month < 100 ∧ t.day < 100 ∧
    t.hour < 100 ∧ t.minute < 100 ∧ t.second < 100 := by
  have valid := utc.valid
  have year := utc.year_le
  simp only [isValid, Bool.and_eq_true, decide_eq_true_eq] at valid
  have days : daysInMonth t.year t.month ≤ 31 := by
    unfold daysInMonth
    split
    · split <;> decide
    all_goals decide
  omega

/-- A date and a time of day with an end for universal time are read. -/
theorem parse?_append (utc : t.IsUtc) {tail : String} (ends : EndsUtc tail.toList) :
    parse? (t.localText ++ tail) = some t := by
  obtain ⟨year, month, day, hour, minute, second⟩ := utc.bounds
  have valid := utc.valid
  have offset := utc.offset
  have micro_lt := utc.micro_lt
  have micros := seconds?_append second micro_lt ends
  have written : (t.localText ++ tail).toList = (paddedDigits 4 t.year).toList ++
      '-' :: ((two t.month).toList ++ '-' :: ((two t.day).toList ++
        'T' :: ((two t.hour).toList ++ ':' :: ((two t.minute).toList ++
          ':' :: ((two t.second).toList ++
            ((if t.micro = 0 then "" else "." ++ paddedDigits 6 t.micro).toList ++
              tail.toList)))))) := by
    simp [localText]
  have read := digits?_paddedDigits (by decide) (show t.year < tenPow 4 from year)
  simp only [parse?, written, date?, read, digits?_two month, digits?_two day, digits?_two hour,
    digits?_two minute, micros, ends.reads, char?, Option.bind_eq_bind, Option.bind_some,
    Option.pure_def, beq_self_eq_true, if_true, Bool.true_or, List.isEmpty_cons]
  rw [← offset]
  exact if_pos valid

/-- The exchanged text of a point in time is read as that point. -/
theorem parse?_text (utc : t.IsUtc) : parse? t.text = some t := by
  rw [text, utc.offset]
  exact parse?_append utc endsUtc_letter

/-- The stored text of a point in time is read as that point. -/
theorem parse?_storedText (utc : t.IsUtc) : parse? t.storedText = some t := by
  rw [storedText, utc.offset]
  exact parse?_append utc endsUtc_offset

end Timestamp

/-- A point in time is read from its exchanged text. -/
theorem Decode.time_text {t : Timestamp} (utc : t.IsUtc) : Decode.time (.text t.text) = .ok t := by
  have year := utc.year_pos
  rw [Decode.time, Timestamp.parse?_text utc]
  simp only [beq_iff_eq]
  rw [if_neg (by omega)]

end CodeAtlas

namespace CodeAtlas.Timestamp

/-! ## What a clock shows -/

/-! ### Years of a cycle -/

/-- The days from the first of March of year 0 to the first of March of a year. -/
def yearStart (year : Nat) : Nat :=
  365 * year + year / 4 - year / 100 + year / 400

/-- A day of a leap cycle less the leap days before it. -/
def evenDay (day : Nat) : Nat :=
  day - day / 1460 + day / 36524 - day / 146096

theorem evenDay_mono : Monotone evenDay := by
  refine monotone_nat_of_le_succ fun day => ?_
  simp only [evenDay]
  omega

/-- The first and the last day of a year lie in that year. -/
theorem evenDay_yearStart : ∀ year < 400, 365 * year ≤ evenDay (yearStart year) ∧
    evenDay (yearStart (year + 1) - 1) < 365 * (year + 1) := by
  decide +kernel

theorem exists_year {day bound : Nat} (less : day < yearStart bound) :
    ∃ year < bound, yearStart year ≤ day ∧ day < yearStart (year + 1) := by
  induction bound with
  | zero => exact absurd less (Nat.not_lt_zero _)
  | succ bound ih =>
    by_cases within : day < yearStart bound
    · obtain ⟨year, year_lt, inside⟩ := ih within
      exact ⟨year, by omega, inside⟩
    · exact ⟨bound, by omega, by omega, less⟩

/-- The year of a cycle in which a day lies. -/
theorem yearOf_day {day : Nat} (less : day < 146097) :
    ∃ year < 400, evenDay day / 365 = year ∧ yearStart year ≤ day ∧ day < yearStart (year + 1) := by
  have less : day < yearStart 400 := less
  obtain ⟨year, year_lt, first, last⟩ := exists_year less
  obtain ⟨low, high⟩ := evenDay_yearStart year year_lt
  have low := low.trans (evenDay_mono first)
  have high := (evenDay_mono (Nat.le_sub_one_of_lt last)).trans_lt high
  exact ⟨year, year_lt, by omega, first, last⟩

/-- Only the year before a leap day has 366 days, counted from March. -/
theorem yearStart_succ (year : Nat) : yearStart (year + 1) ≤ yearStart year + 366 ∧
    (yearStart year + 366 ≤ yearStart (year + 1) → isLeap (year + 1) = true) := by
  have century : year / 100 ≤ year := Nat.div_le_self year 100
  simp only [yearStart, Nat.succ_div, isLeap, Bool.and_eq_true, Bool.or_eq_true, beq_iff_eq,
    bne_iff_ne]
  generalize year / 4 = fours, year / 100 = hundreds, year / 400 = cycles at *
  split_ifs <;> omega

/-- Leap years come back with each cycle. -/
theorem isLeap_add (era year : Nat) : isLeap (era * 400 + year) = isLeap year := by
  have four : (era * 400 + year) % 4 = year % 4 := by omega
  have century : (era * 400 + year) % 100 = year % 100 := by omega
  have cycle : (era * 400 + year) % 400 = year % 400 := by omega
  rw [isLeap, isLeap, four, century, cycle]

/-- A day of a year that starts in March is a day of one of its months. -/
theorem day_le {day month : Int} (nonneg : 0 ≤ day) (le : day ≤ 365)
    (month_eq : (5 * day + 2) / 153 = month) {year : Nat}
    (last : day = 365 → isLeap year = true) :
    0 ≤ month ∧ month ≤ 11 ∧ 0 ≤ day - (153 * month + 2) / 5 ∧
      (day - (153 * month + 2) / 5 + 1).toNat ≤
        daysInMonth year (if month < 10 then month + 3 else month - 9).toNat := by
  have low : 0 ≤ month := by omega
  have high : month ≤ 11 := by omega
  have first : 0 ≤ day - (153 * month + 2) / 5 := by omega
  refine ⟨low, high, first, ?_⟩
  by_cases late : month = 11
  · subst late
    rw [show daysInMonth year ((if (11 : Int) < 10 then (11 : Int) + 3 else 11 - 9).toNat) =
      if isLeap year then 29 else 28 from rfl]
    split
    next => omega
    next no =>
      have : day ≠ 365 := fun same => no (last same)
      omega
  · interval_cases month
    all_goals
      simp [daysInMonth]
      omega

/-- A day is counted in its cycle of years that start in March, and in its year. -/
theorem exists_cycle {n : Int} (nonneg : 0 ≤ n) : ∃ era year rest : Nat, year < 400 ∧ rest ≤ 365 ∧
    (rest = 365 → isLeap (year + 1) = true) ∧ n = era * 146097 + yearStart year + rest ∧
    ofDayNumber n =
      let month : Int := (5 * (rest : Int) + 2) / 153
      let shown := if month < 10 then month + 3 else month - 9
      (((era : Int) * 400 + year + if shown ≤ 2 then 1 else 0).toNat, shown.toNat,
        ((rest : Int) - (153 * month + 2) / 5 + 1).toNat) := by
  obtain ⟨n, rfl⟩ := Int.eq_ofNat_of_zero_le nonneg
  obtain ⟨year, year_lt, even, begins, ends⟩ :=
    yearOf_day (Nat.mod_lt n (show 146097 > 0 by decide))
  obtain ⟨longest, leap⟩ := yearStart_succ year
  have era_eq : (n : Int) / 146097 = (n / 146097 : Nat) := by omega
  have day_eq : (n : Int) % 146097 = (n % 146097 : Nat) := by omega
  refine ⟨n / 146097, year, n % 146097 - yearStart year, year_lt, by omega, ?_, by omega, ?_⟩
  · intro last
    exact leap (by omega)
  generalize n / 146097 = era at *
  generalize n % 146097 = day at *
  have year_eq : ((day : Int) - day / 1460 + day / 36524 - day / 146096) / 365 = year := by
    rw [evenDay] at even
    omega
  have start_eq : 365 * (year : Int) + year / 4 - year / 100 = yearStart year := by
    rw [yearStart]
    omega
  have rest_eq : (day : Int) - yearStart year = ((day - yearStart year : Nat) : Int) := by omega
  simp only [ofDayNumber, day_eq, era_eq, year_eq, start_eq, rest_eq]

/-- The date of a day number is possible, and in a year of four digits when the day is. -/
theorem ofDayNumber_valid {n : Int} (first : 306 ≤ n) (last : n < 3652365) :
    1 ≤ (ofDayNumber n).1 ∧ (ofDayNumber n).1 ≤ 9999 ∧
      1 ≤ (ofDayNumber n).2.1 ∧ (ofDayNumber n).2.1 ≤ 12 ∧ 1 ≤ (ofDayNumber n).2.2 ∧
      (ofDayNumber n).2.2 ≤ daysInMonth (ofDayNumber n).1 (ofDayNumber n).2.1 := by
  obtain ⟨era, year, rest, year_lt, rest_le, leap, whole, date⟩ :=
    exists_cycle (show 0 ≤ n by omega)
  have start : yearStart year = 365 * year + year / 4 - year / 100 + year / 400 := rfl
  simp only [date]
  generalize yearStart year = start at *
  generalize month_eq : (5 * (rest : Int) + 2) / 153 = month
  -- January and February belong to the year that the next March is in.
  generalize year_eq : ((era : Int) * 400 + year +
    if (if month < 10 then month + 3 else month - 9) ≤ 2 then 1 else 0).toNat = shown
  have leapDay (last : (rest : Int) = 365) : isLeap shown = true := by
    have next : shown = era * 400 + (year + 1) := by split_ifs at year_eq <;> omega
    rw [next, isLeap_add]
    exact leap (by omega)
  obtain ⟨low, high, first_le, fits⟩ :=
    day_le (show (0 : Int) ≤ rest by omega) (by omega) month_eq leapDay
  refine ⟨?_, ?_, ?_, ?_, ?_, fits⟩ <;> split_ifs at * <;> omega

/-- A date has the number of the day that it is the date of. -/
theorem dayNumber_ofDayNumber {n : Int} (nonneg : 0 ≤ n) :
    dayNumber (ofDayNumber n).1 (ofDayNumber n).2.1 (ofDayNumber n).2.2 = n := by
  obtain ⟨era, year, rest, year_lt, rest_le, -, whole, date⟩ := exists_cycle nonneg
  have start : yearStart year = 365 * year + year / 4 - year / 100 + year / 400 := rfl
  simp only [date, dayNumber]
  generalize month_eq : (5 * (rest : Int) + 2) / 153 = month
  generalize shown_eq : (if month < 10 then month + 3 else month - 9) = shown
  have months : 0 ≤ month ∧ month ≤ 11 := by omega
  -- The year goes back to March, and the month too.
  have fromMarch : ((shown.toNat : Int) + 9) % 12 = month := by
    split_ifs at shown_eq <;> omega
  have marchYear : (if shown.toNat ≤ 2
      then (((era : Int) * 400 + year + if shown ≤ 2 then 1 else 0).toNat : Int) - 1
      else ((era : Int) * 400 + year + if shown ≤ 2 then 1 else 0).toNat) = era * 400 + year := by
    split_ifs <;> omega
  rw [fromMarch, marchYear]
  omega

/-- What a clock shows from the first of January of year 1 up to the end of year 9999. -/
theorem isUtc_ofMicros {micros : Int} (first : -62135596800000000 ≤ micros)
    (last : micros < 253402300800000000) : (ofMicros micros).IsUtc := by
  have epoch : epochDay = 719468 := by decide
  have perDay : microsPerDay = 86400000000 := by decide
  obtain ⟨year_pos, year_le, month_pos, month_le, day_pos, day_le⟩ :=
    @ofDayNumber_valid (micros / microsPerDay + epochDay) (by rw [epoch, perDay]; omega)
      (by rw [epoch, perDay]; omega)
  have inDay : (micros % microsPerDay).toNat < 86400000000 := by
    rw [perDay]
    omega
  simp only [ofMicros]
  generalize ofDayNumber (micros / microsPerDay + epochDay) = date at *
  generalize (micros % microsPerDay).toNat = rest at *
  refine ⟨?_, year_pos, year_le, Nat.mod_lt _ (by decide), rfl⟩
  simp only [isValid, Bool.and_eq_true, decide_eq_true_eq]
  refine ⟨⟨⟨⟨⟨⟨month_pos, month_le⟩, day_pos⟩, day_le⟩, ?_⟩, ?_⟩, ?_⟩ <;> omega

/-- What a clock shows is the time of the clock. -/
theorem toMicros_ofMicros {micros : Int} (first : -62135596800000000 ≤ micros) :
    (ofMicros micros).toMicros = micros := by
  have epoch : epochDay = 719468 := by decide
  have perDay : microsPerDay = 86400000000 := by decide
  have date : dayNumber (ofMicros micros).year (ofMicros micros).month (ofMicros micros).day =
      micros / microsPerDay + epochDay :=
    dayNumber_ofDayNumber (by rw [epoch, perDay]; omega)
  rw [toMicros, date, perDay, microsPerSecond]
  simp only [ofMicros, Option.getD_some, perDay]
  omega

end CodeAtlas.Timestamp

namespace CodeAtlas

/-! ## Order -/

/-! ### Digits of one width -/

namespace Number

theorem digitsValue_singleton {c : Char} : digitsValue [c] = c.toNat - 48 := by
  simp [digitsValue]

/-- Of two rows of as many digits the smaller number is the lesser text. -/
theorem lt_append_iff {ds ds' : List Char} (areDigits : AreDigits ds) (areDigits' : AreDigits ds')
    (size : ds.length = ds'.length) (rest rest' : List Char) :
    ds ++ rest < ds' ++ rest' ↔
      digitsValue ds < digitsValue ds' ∨ digitsValue ds = digitsValue ds' ∧ rest < rest' := by
  induction ds generalizing ds' with
  | nil =>
    obtain rfl := List.length_eq_zero_iff.mp size.symm
    simp
  | cons c ds ih =>
    obtain ⟨c', ds', rfl⟩ := List.exists_cons_of_length_eq_add_one size.symm
    have size : ds.length = ds'.length := Nat.succ.inj size
    obtain ⟨first, areDigits⟩ := List.forall_mem_cons.mp areDigits
    obtain ⟨first', areDigits'⟩ := List.forall_mem_cons.mp areDigits'
    have less := digitsValue_lt areDigits
    have less' := digitsValue_lt areDigits'
    have head := digitsValue_append [c] ds
    have head' := digitsValue_append [c'] ds'
    rw [← size] at head' less'
    rw [digitsValue_singleton] at head head'
    rw [List.cons_append, List.cons_append, List.cons_lt_cons_iff, ih areDigits areDigits' size]
    simp only [List.singleton_append] at head head'
    have digit : 48 ≤ c.toNat := (Char.isDigit_iff_toNat.mp first).1
    have digit' : 48 ≤ c'.toNat := (Char.isDigit_iff_toNat.mp first').1
    rw [head, head', Char.lt_def, UInt32.lt_iff_toNat_lt, Char.toNat_val, Char.toNat_val,
      ← Char.toNat_inj]
    rcases lt_trichotomy c.toNat c'.toNat with lower | same | higher
    · -- A lower first digit is not made up for.
      have apart := Nat.mul_le_mul_right (tenPow ds.length)
        (show c.toNat - 48 + 1 ≤ c'.toNat - 48 by omega)
      rw [Nat.succ_mul] at apart
      simp only [lower, true_or, true_iff]
      exact .inl (by omega)
    · rw [same]
      simp
    · have apart := Nat.mul_le_mul_right (tenPow ds.length)
        (show c'.toNat - 48 + 1 ≤ c.toNat - 48 by omega)
      rw [Nat.succ_mul] at apart
      simp only [higher.not_gt, higher.ne', false_and, or_self, false_iff, not_or, not_and]
      exact ⟨by omega, fun same => by omega⟩

/-- Padded to one width, the smaller number is the lesser text. -/
theorem lt_paddedDigits_append_iff {width m n : Nat} (pos : 0 < width) (fits : m < tenPow width)
    (fits' : n < tenPow width) (rest rest' : List Char) :
    (paddedDigits width m).toList ++ rest < (paddedDigits width n).toList ++ rest' ↔
      m < n ∨ m = n ∧ rest < rest' := by
  rw [lt_append_iff (areDigits_paddedDigits width m) (areDigits_paddedDigits width n)
      ((length_paddedDigits pos fits).trans (length_paddedDigits pos fits').symm),
    digitsValue_paddedDigits, digitsValue_paddedDigits]

end Number

namespace Timestamp

open Number

variable {t t' : Timestamp}

/-- The first field that differs is less. -/
def Earlier (t t' : Timestamp) : Prop :=
  t.year < t'.year ∨ t.year = t'.year ∧ (t.month < t'.month ∨ t.month = t'.month ∧
    (t.day < t'.day ∨ t.day = t'.day ∧ (t.hour < t'.hour ∨ t.hour = t'.hour ∧
      (t.minute < t'.minute ∨ t.minute = t'.minute ∧ (t.second < t'.second ∨
        t.second = t'.second ∧ t.micro < t'.micro)))))

/-! ### Texts -/

/-- A fraction with the offset behind it. -/
def fractionText (micro : Nat) : List Char :=
  (if micro = 0 then "" else "." ++ paddedDigits 6 micro).toList ++ (offsetText 0).toList

/-- No fraction is less than any. -/
theorem fractionText_lt_iff {micro micro' : Nat} (less : micro < 1000000)
    (less' : micro' < 1000000) : fractionText micro < fractionText micro' ↔ micro < micro' := by
  have offset : (offsetText 0).toList = ['+', '0', '0', ':', '0', '0'] := by decide
  have shown (n : Nat) : ("." ++ paddedDigits 6 n).toList = '.' :: (paddedDigits 6 n).toList := by
    simp
  simp only [fractionText, offset]
  by_cases none_ : micro = 0 <;> by_cases none_' : micro' = 0
  · simp [none_, none_']
  · rw [if_pos none_, if_neg none_', shown]
    refine iff_of_true (List.Lex.rel (by decide)) ?_
    rw [none_]
    exact Nat.pos_of_ne_zero none_'
  · rw [if_neg none_, if_pos none_', shown]
    refine iff_of_false (fun less => ?_) (by rw [none_']; exact Nat.not_lt_zero _)
    exact List.lt_asymm less (List.Lex.rel (by decide))
  · rw [if_neg none_, if_neg none_', shown, shown, List.cons_append, List.cons_append,
      List.cons_lt_cons_self, lt_paddedDigits_append_iff (by decide) less less']
    simp

theorem toList_storedText (utc : t.IsUtc) : t.storedText.toList =
    (paddedDigits 4 t.year).toList ++ '-' :: ((two t.month).toList ++ '-' ::
      ((two t.day).toList ++ 'T' :: ((two t.hour).toList ++ ':' :: ((two t.minute).toList ++
        ':' :: ((two t.second).toList ++ fractionText t.micro))))) := by
  simp [storedText, localText, fractionText, utc.offset]

/-- Texts compare as the fields do. -/
theorem storedText_lt_iff_earlier (utc : t.IsUtc) (utc' : t'.IsUtc) :
    t.storedText < t'.storedText ↔ t.Earlier t' := by
  obtain ⟨year, month, day, hour, minute, second⟩ := utc.bounds
  obtain ⟨year', month', day', hour', minute', second'⟩ := utc'.bounds
  have two_lt {m n : Nat} (fits : m < 100) (fits' : n < 100) (c : Char) (rest rest' : List Char) :
      c :: ((two m).toList ++ rest) < c :: ((two n).toList ++ rest') ↔
        m < n ∨ m = n ∧ rest < rest' := by
    rw [List.cons_lt_cons_self]
    exact lt_paddedDigits_append_iff (by decide) fits fits' rest rest'
  rw [String.lt_iff_toList_lt, toList_storedText utc, toList_storedText utc',
    lt_paddedDigits_append_iff (by decide) year year', two_lt month month', two_lt day day',
    two_lt hour hour', two_lt minute minute', two_lt second second',
    fractionText_lt_iff utc.micro_lt utc'.micro_lt]
  rfl

/-! ### Microseconds -/

/-- The day number of the first day of a month, months being counted from year 0 on. -/
def monthStart (index : Nat) : Int :=
  dayNumber (index / 12) (index % 12 + 1) 1

theorem monthStart_eq (year : Nat) {months : Nat} (less : months < 12) :
    monthStart (12 * year + months) = dayNumber year (months + 1) 1 := by
  rw [monthStart, show (12 * year + months) / 12 = year by omega,
    show (12 * year + months) % 12 = months by omega]

/-- Days of a month are counted from its first. -/
theorem dayNumber_eq (year day : Nat) {month : Nat} (first : 1 ≤ month) (last : month ≤ 12) :
    dayNumber year month day = monthStart (12 * year + (month - 1)) + (day - 1) := by
  rw [monthStart_eq year (by omega), Nat.sub_add_cancel first]
  simp [dayNumber]

/-- A month ends before the next begins. -/
theorem dayNumber_lt_monthStart {year month day : Nat} (first : 1 ≤ month) (last : month ≤ 12)
    (le : day ≤ daysInMonth year month) :
    dayNumber year month day < monthStart (12 * year + month) := by
  by_cases december : month = 12
  · have next := monthStart_eq (year + 1) (show 0 < 12 by decide)
    rw [december, show 12 * year + 12 = 12 * (year + 1) + 0 by omega, next]
    rw [december] at le
    simp only [daysInMonth] at le
    simp only [dayNumber]
    omega
  · rw [monthStart_eq year (by omega)]
    by_cases february : month = 2
    · -- The leap day is the last one before March.
      rw [february] at le ⊢
      simp only [daysInMonth, isLeap, Bool.and_eq_true, Bool.or_eq_true, beq_iff_eq,
        bne_iff_ne] at le
      simp only [dayNumber]
      split at le <;> omega
    · interval_cases month
      all_goals
        simp only [daysInMonth] at le
        simp only [dayNumber]
        omega

/-- Months begin one after another. -/
theorem monthStart_le {index index' : Nat} (le : index ≤ index') :
    monthStart index ≤ monthStart index' := by
  refine monotone_nat_of_le_succ (fun index => ?_) le
  have day : 1 ≤ daysInMonth (index / 12) (index % 12 + 1) := by
    unfold daysInMonth
    split
    · split <;> decide
    all_goals decide
  have less := dayNumber_lt_monthStart (show 1 ≤ index % 12 + 1 by omega) (by omega) day
  rw [show 12 * (index / 12) + (index % 12 + 1) = index + 1 by omega] at less
  exact less.le

/-- The bounds of the fields of a possible date and time. -/
theorem IsUtc.fields (utc : t.IsUtc) : 1 ≤ t.month ∧ t.month ≤ 12 ∧ 1 ≤ t.day ∧
    t.day ≤ daysInMonth t.year t.month ∧ t.hour ≤ 23 ∧ t.minute ≤ 59 ∧ t.second ≤ 59 := by
  have valid := utc.valid
  simp only [isValid, Bool.and_eq_true, decide_eq_true_eq] at valid
  omega

/-- Of two dates the one whose first field that differs is less has the lower number. -/
theorem dayNumber_lt {year month day year' month' day' : Nat} (first : 1 ≤ month)
    (last : month ≤ 12) (le : day ≤ daysInMonth year month) (first' : 1 ≤ month')
    (last' : month' ≤ 12) (pos : 1 ≤ day')
    (earlier : year < year' ∨ year = year' ∧ (month < month' ∨ month = month' ∧ day < day')) :
    dayNumber year month day < dayNumber year' month' day' := by
  by_cases same : 12 * year + month = 12 * year' + month'
  · obtain rfl : year = year' := by omega
    obtain rfl : month = month' := by omega
    rw [dayNumber_eq year day first last, dayNumber_eq year day' first last]
    omega
  · have next : 12 * year + month ≤ 12 * year' + (month' - 1) := by omega
    calc dayNumber year month day
      _ < monthStart (12 * year + month) := dayNumber_lt_monthStart first last le
      _ ≤ monthStart (12 * year' + (month' - 1)) := monthStart_le next
      _ ≤ dayNumber year' month' day' := by
        rw [dayNumber_eq year' day' first' last']
        omega

theorem toMicros_lt (utc : t.IsUtc) (utc' : t'.IsUtc) (earlier : t.Earlier t') :
    t.toMicros < t'.toMicros := by
  -- The date outweighs the time of day, and of that each field those after it.
  obtain ⟨month_pos, month_le, day_pos, day_le, hour, minute, second⟩ := utc.fields
  obtain ⟨month_pos', month_le', day_pos', day_le', hour', minute', second'⟩ := utc'.fields
  have micro := utc.micro_lt
  have micro' := utc'.micro_lt
  have perDay : microsPerDay = 86400000000 := by decide
  have date : dayNumber t.year t.month t.day < dayNumber t'.year t'.month t'.day ∨
      dayNumber t.year t.month t.day = dayNumber t'.year t'.month t'.day ∧
        (t.hour < t'.hour ∨ t.hour = t'.hour ∧ (t.minute < t'.minute ∨ t.minute = t'.minute ∧
          (t.second < t'.second ∨ t.second = t'.second ∧ t.micro < t'.micro))) := by
    by_cases same : t.year = t'.year ∧ t.month = t'.month ∧ t.day = t'.day
    · obtain ⟨year, month, day⟩ := same
      rw [year, month, day]
      refine .inr ⟨rfl, ?_⟩
      unfold Earlier at earlier
      omega
    · refine .inl (dayNumber_lt month_pos month_le day_le month_pos' month_le' day_pos' ?_)
      unfold Earlier at earlier
      omega
  simp only [toMicros, utc.offset, utc'.offset, Option.getD_some, perDay, microsPerSecond]
  generalize dayNumber t.year t.month t.day = date at *
  generalize dayNumber t'.year t'.month t'.day = date' at *
  omega

/-- Of two points one is earlier, or they are the same. -/
theorem earlier_trichotomy (utc : t.IsUtc) (utc' : t'.IsUtc) :
    t.Earlier t' ∨ t = t' ∨ t'.Earlier t := by
  have fields : t.Earlier t' ∨ (t.year = t'.year ∧ t.month = t'.month ∧ t.day = t'.day ∧
      t.hour = t'.hour ∧ t.minute = t'.minute ∧ t.second = t'.second ∧ t.micro = t'.micro) ∨
        t'.Earlier t := by
    unfold Earlier
    omega
  refine fields.imp_right (Or.imp_left ?_)
  rintro ⟨year, month, day, hour, minute, second, micro⟩
  have offset := utc.offset.trans utc'.offset.symm
  cases t
  cases t'
  simp_all

/-- Stored texts are in the order of time. -/
theorem storedText_lt_iff (utc : t.IsUtc) (utc' : t'.IsUtc) :
    t.storedText < t'.storedText ↔ t.toMicros < t'.toMicros := by
  rw [storedText_lt_iff_earlier utc utc']
  refine ⟨toMicros_lt utc utc', fun less => ?_⟩
  rcases earlier_trichotomy utc utc' with earlier | same | later
  · exact earlier
  · exact absurd (same ▸ less) (lt_irrefl _)
  · exact absurd less (toMicros_lt utc' utc later).not_gt

theorem storedText_le_iff (utc : t.IsUtc) (utc' : t'.IsUtc) :
    t.storedText ≤ t'.storedText ↔ t.toMicros ≤ t'.toMicros := by
  rw [← not_lt, storedText_lt_iff utc' utc, not_lt]

end Timestamp

end CodeAtlas
