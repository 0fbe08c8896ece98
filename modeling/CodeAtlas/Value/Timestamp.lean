import CodeAtlas.Number.Dyadic
import CodeAtlas.Text.CharClass

/-!
Points in time: a calendar date and a time of day to the microsecond, with or without a distance
from universal time. Their text is the ISO 8601 one; a fraction is written only when there is one,
always with six digits.
-/

namespace CodeAtlas

/-- A date and time, perhaps with an offset from universal time in seconds. -/
structure Timestamp where
  year : Nat
  month : Nat
  day : Nat
  hour : Nat := 0
  minute : Nat := 0
  second : Nat := 0
  micro : Nat := 0
  offset : Option Int := none
  deriving DecidableEq, Inhabited

namespace Timestamp

/-- Leap years. -/
def isLeap (year : Nat) : Bool :=
  year % 4 == 0 && (year % 100 != 0 || year % 400 == 0)

/-- The length of a month. -/
def daysInMonth (year month : Nat) : Nat :=
  match month with
  | 2 => if isLeap year then 29 else 28
  | 4 | 6 | 9 | 11 => 30
  | _ => 31

/-- The days from the first of March of year 0 to a date; the year starts in March, so that the leap
day comes last. -/
def dayNumber (year month day : Nat) : Int :=
  let y : Int := if month ≤ 2 then (year : Int) - 1 else year
  let m : Int := ((month : Int) + 9) % 12
  365 * y + y / 4 - y / 100 + y / 400 + (153 * m + 2) / 5 + (day - 1 : Int)

/-- The day number of 1970-01-01. -/
def epochDay : Int := dayNumber 1970 1 1

/-- The date of a day number. -/
def ofDayNumber (n : Int) : Nat × Nat × Nat :=
  let era := n / 146097
  let inEra := n % 146097
  let yearInEra := (inEra - inEra / 1460 + inEra / 36524 - inEra / 146096) / 365
  let inYear := inEra - (365 * yearInEra + yearInEra / 4 - yearInEra / 100)
  let m := (5 * inYear + 2) / 153
  let day := inYear - (153 * m + 2) / 5 + 1
  let month := if m < 10 then m + 3 else m - 9
  let year := era * 400 + yearInEra + (if month ≤ 2 then 1 else 0)
  (year.toNat, month.toNat, day.toNat)

/-- Microseconds in a second. -/
def microsPerSecond : Int := 1000000

/-- Microseconds in a day. -/
def microsPerDay : Int := 86400 * microsPerSecond

/-- The time so many microseconds after 1970-01-01 in universal time. -/
def ofMicros (micros : Int) : Timestamp :=
  let (year, month, day) := ofDayNumber (micros / microsPerDay + epochDay)
  let inDay := (micros % microsPerDay).toNat
  let seconds := inDay / 1000000
  ⟨year, month, day, seconds / 3600, seconds / 60 % 60, seconds % 60, inDay % 1000000, some 0⟩

/-- The microseconds from 1970-01-01 in universal time; a time without an offset counts as universal
time. -/
def toMicros (t : Timestamp) : Int :=
  let seconds : Int := t.hour * 3600 + t.minute * 60 + t.second - t.offset.getD 0
  (dayNumber t.year t.month t.day - epochDay) * microsPerDay + seconds * microsPerSecond + t.micro

/-- A number with two digits. -/
def two (n : Nat) : String :=
  Number.paddedDigits 2 n

/-- The date and the time of day. -/
def localText (t : Timestamp) : String :=
  Number.paddedDigits 4 t.year ++ "-" ++ two t.month ++ "-" ++ two t.day ++ "T" ++
    two t.hour ++ ":" ++
    two t.minute ++ ":" ++ two t.second ++
    (if t.micro == 0 then "" else "." ++ Number.paddedDigits 6 t.micro)

/-- An offset as sign, hours and minutes. -/
def offsetText (offset : Int) : String :=
  let minutes := offset.natAbs / 60
  (if offset < 0 then "-" else "+") ++ two (minutes / 60) ++ ":" ++ two (minutes % 60)

/-- The text in which stamps are stored, with a numeric offset. -/
def storedText (t : Timestamp) : String :=
  t.localText ++ (t.offset.map offsetText).getD ""

/-- The text in which times are exchanged, with `Z` for universal time. -/
def text (t : Timestamp) : String :=
  t.localText ++
    (match t.offset with
      | none => ""
      | some 0 => "Z"
      | some offset => offsetText offset)

/-- The date and time are possible, in any year of four digits. -/
def isValid (t : Timestamp) : Bool :=
  1 ≤ t.month && t.month ≤ 12 && 1 ≤ t.day && t.day ≤ daysInMonth t.year t.month &&
    t.hour ≤ 23 && t.minute ≤ 59 && t.second ≤ 59

/-- `count` digits, and the rest. -/
def digits? (count : Nat) (s : List Char) : Option (Nat × List Char) :=
  let ds := s.take count
  if ds.length == count && ds.all Char.isDigit then
    some (ds.foldl (fun n c => n * 10 + (c.toNat - '0'.toNat)) 0, s.drop count)
  else none

/-- A character, and the rest. -/
def char? (accepts : Char → Bool) : List Char → Option (List Char)
  | c :: rest => if accepts c then some rest else none
  | [] => none

/-- A calendar date, and the rest. -/
def date? (s : List Char) : Option ((Nat × Nat × Nat) × List Char) := do
  let (year, s) ← digits? 4 s
  let s ← char? (· == '-') s
  let (month, s) ← digits? 2 s
  let s ← char? (· == '-') s
  let (day, s) ← digits? 2 s
  return ((year, month, day), s)

/-- A hyphen or the minus sign of mathematics. -/
def isMinus (c : Char) : Bool :=
  c == '-' || c == '\u2212'

/-- An offset that ends the text; `none` inside when there is none. -/
def offset? (s : List Char) : Option (Option Int) :=
  match s with
  | [] => some none
  | sign :: rest =>
    if sign == 'Z' || sign == 'z' then if rest.isEmpty then some (some 0) else none
    else if sign == '+' || isMinus sign then do
      let (hours, rest) ← digits? 2 rest
      let rest := (char? (· == ':') rest).getD rest
      let (minutes, rest) ← digits? 2 rest
      let seconds : Int := hours * 3600 + minutes * 60
      if rest.isEmpty && hours ≤ 23 && minutes ≤ 59 then
        return some (if isMinus sign then -seconds else seconds)
      else none
    else none

/-- Seconds and their fraction after a minute, when given. -/
def seconds? (s : List Char) : Option (Nat × Nat × List Char) :=
  match s with
  | ':' :: rest => do
    let (second, rest) ← digits? 2 rest
    match rest with
    | mark :: more =>
      if mark == '.' || mark == ',' then
        let fraction := more.takeWhile Char.isDigit
        let after := more.dropWhile Char.isDigit
        if fraction.isEmpty then none
        else
          let six := (fraction ++ List.replicate 6 '0').take 6
          let (micro, _) ← digits? 6 six
          return (second, micro, after)
      else return (second, 0, rest)
    | [] => return (second, 0, [])
  | _ => some (0, 0, s)

/-- Reads a date, or a date and a time of day. -/
def parse? (text : String) : Option Timestamp := do
  let ((year, month, day), s) ← date? text.toList
  if s.isEmpty then
    let t : Timestamp := { year, month, day }
    if t.isValid then some t else none
  else
    let s ← char? (fun c => c == 'T' || c == 't' || c == ' ' || c == '_') s
    let (hour, s) ← digits? 2 s
    let s ← char? (· == ':') s
    let (minute, s) ← digits? 2 s
    let (second, micro, s) ← seconds? s
    let offset ← offset? s
    let t : Timestamp := ⟨year, month, day, hour, minute, second, micro, offset⟩
    if t.isValid then some t else none

end Timestamp

end CodeAtlas
