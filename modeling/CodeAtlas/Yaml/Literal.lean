import CodeAtlas.Number.Reading
import CodeAtlas.Text.Base64
import CodeAtlas.Text.Casing
import CodeAtlas.Text.Digits
import CodeAtlas.Text.Utf8
import CodeAtlas.Value.Json
import CodeAtlas.Value.Timestamp
import CodeAtlas.Yaml.Scalar

/-!
The values that scalars write, once it is known of what sort they are. A scalar of the right shape
may still write no value: a whole number without digits or with too many of them, or a date that is
on no calendar.
-/

namespace CodeAtlas.Yaml

/-- Why content has no value. -/
inductive Fault where
  /-- It is not of the sort that its tag or its place asks for. -/
  | unfit
  /-- There is no text where a number should stand. -/
  | nothing
  /-- Not the digits of a whole number to a base. -/
  | notInt (base : Nat) (text : String)
  /-- More digits than are read. -/
  | tooLong (digits : Nat)
  | notReal (text : String)
  | notBool (text : String)
  | notTime
  | year (n : Nat)
  | month
  | day
  | hour
  | minute
  | second
  /-- An offset of a day or more, in minutes. -/
  | offset (minutes : Int)
  /-- A whole number with too many digits to be written out as a key. -/
  | longKey
  /-- Something that contains itself. -/
  | endless

namespace Fault

/-- The word for the kind of a fault. -/
def word : Fault → String
  | nothing => "IndexError"
  | notBool _ => "KeyError"
  | notTime => "AttributeError"
  | endless => "RecursionError"
  | _ => "ValueError"

/-- Minutes as days and seconds, those that are there. -/
def duration (minutes : Int) : String :=
  let days := minutes.fdiv 1440
  let seconds := minutes.fmod 1440 * 60
  let parts := (if days == 0 then [] else [s!"days={days}"]) ++
    (if seconds == 0 then [] else [s!"seconds={seconds}"])
  "datetime.timedelta(" ++ ", ".intercalate parts ++ ")"

/-- So many characters of a text in quotes are shown when it is no whole number. -/
def shownLength : Nat := 200

/-- The fault in words. -/
def message : Fault → String
  | unfit => "could not determine a constructor"
  | nothing => "string index out of range"
  | notInt base text =>
    let shown := String.ofList ((Text.quoted text).toList.take shownLength)
    s!"invalid literal for int() with base {base}: {shown}"
  | tooLong digits =>
    "Exceeds the limit (4300 digits) for integer string conversion: " ++
      s!"value has {digits} digits; use sys.set_int_max_str_digits() to increase the limit"
  | notReal text => s!"could not convert string to float: {Text.quoted text}"
  | notBool text => Text.quoted text
  | notTime => "'NoneType' object has no attribute 'groupdict'"
  | year n => s!"year {n} is out of range"
  | month => "month must be in 1..12"
  | day => "day is out of range for month"
  | hour => "hour must be in 0..23"
  | minute => "minute must be in 0..59"
  | second => "second must be in 0..59"
  | offset minutes =>
    "offset must be a timedelta strictly between -timedelta(hours=24) and " ++
      s!"timedelta(hours=24), not {duration minutes}."
  | longKey =>
    "Exceeds the limit (4300 digits) for integer string conversion; " ++
      "use sys.set_int_max_str_digits() to increase the limit"
  | endless => "maximum recursion depth exceeded"

end Fault

namespace Literal

/-- A truth value. -/
def bool (s : String) : Except Fault Bool :=
  match Plain.boolOf? (Text.lower s) with
  | some b => .ok b
  | none => .error (.notBool (Text.lower s))

/-- So many digits of a decimal number are read. -/
def maxDigits : Nat := 4300

/-- The letter that may stand after a zero before the digits of a number to a base. -/
def baseLetter? (base : Nat) : Option Char :=
  [(2, 'b'), (8, 'o'), (16, 'x')].lookup base

/-- Without a zero and the letter of the base at the start. -/
def withoutBase (base : Nat) (s : List Char) : List Char :=
  match s with
  | '0' :: c :: rest => if baseLetter? base == some c.toLower then rest else s
  | _ => s

/-- The whole number that a text writes to a base, perhaps with a sign and with blanks around it.
Its digits are counted before what follows them is looked at. -/
def whole (base : Nat) (s : List Char) : Except Fault Int :=
  let digitOf? (c : Char) : Option Nat := (Json.hexDigit? c).filter fun d => decide (d < base)
  let isDigit (c : Char) : Bool := (digitOf? c).isSome
  let (negative, rest) := Number.signed (Number.withoutMargins (Text.inAsciiDigits s))
  let written := withoutBase base rest
  let ds := (written.takeWhile isDigit).filterMap digitOf?
  if base == 10 && maxDigits < ds.length then .error (.tooLong ds.length)
  else if ds.isEmpty || !written.all isDigit then .error (.notInt base (String.ofList s))
  else
    let n := ds.foldl (fun n d => n * base + d) 0
    .ok (if negative then -(n : Int) else n)

/-- A whole number. A sign comes off first, and what follows it may have one more. -/
def int (s : List Char) : Except Fault Int := do
  let (negative, rest) := Number.signed (s.filter (· != '_'))
  let n : Int ← match rest with
    | [] => .error .nothing
    | ['0'] => .ok 0
    | '0' :: 'b' :: more => whole 2 more
    | '0' :: 'x' :: more => whole 16 more
    | '0' :: _ => whole 8 rest
    | _ => do
      let pieces ← (Text.splitOn ':' rest).mapM (whole 10)
      .ok (pieces.foldl (fun n piece => n * 60 + piece) 0)
  return if negative then -n else n

/-- The number that a text in decimal writes. -/
def decimal (s : List Char) : Except Fault Float :=
  match Number.real? (Number.withoutMargins (Text.inAsciiDigits s)) with
  | some x => .ok x
  | none => .error (.notReal (String.ofList s))

/-- A real number; the pieces of one in base sixty are added up from the last. -/
def real (s : List Char) : Except Fault Float := do
  let word := (Text.lower (String.ofList s)).toList.filter (· != '_')
  let (negative, rest) := Number.signed word
  let x ←
    if word.isEmpty then .error .nothing
    else if rest == ".inf".toList then .ok (Number.infinity false)
    else if rest == ".nan".toList then .ok (0.0 / 0.0)
    else if rest.contains ':' then do
      let pieces ← (Text.splitOn ':' rest).mapM decimal
      let add := fun ((sum : Float), (base : Nat)) (x : Float) =>
        (sum + x * Number.nearest false base 1, base * 60)
      .ok (pieces.reverse.foldl add (0.0, 1)).1
    else decimal rest
  return if negative then -x else x

/-- Leading digits as a number, and the rest after the character behind them. -/
def part (s : List Char) : Nat × List Char :=
  let (ds, rest) := Number.digits s
  (Number.digitsValue ds, rest.drop 1)

/-- The offset of a time of day, in minutes. -/
def offsetOf (s : List Char) : Int :=
  let found := s.dropWhile fun c => c != '-' && c != '+'
  let (hours, rest) := part (found.drop 1)
  let minutes : Int := hours * 60 + (part rest).1
  if found.head? == some '-' then -minutes else minutes

/-- The fault of a date. -/
def dateFault? (year month day : Nat) : Option Fault :=
  if year < 1 then some (.year year)
  else if month < 1 || 12 < month then some .month
  else if day < 1 || Timestamp.daysInMonth year month < day then some .day
  else none

/-- The fault of a time of day. -/
def clockFault? (hour minute second : Nat) : Option Fault :=
  if 23 < hour then some .hour
  else if 59 < minute then some .minute
  else if 59 < second then some .second
  else none

/-- The fault of a point in time; its offset is looked at before all else. -/
def timeFault? (s : List Char) : Option Fault :=
  if !(Shape.time.matchesAll s || Shape.looseDate.matchesAll s) then some .notTime
  else
    let (year, rest) := part s
    let (month, rest) := part rest
    let (day, rest) := part rest
    let (hour, rest) := part (rest.dropWhile fun c => c == ' ' || c == '\t')
    let (minute, rest) := part rest
    let second := (part rest).1
    let minutes := offsetOf rest
    if 1440 ≤ minutes.natAbs then some (.offset minutes)
    else (dateFault? year month day).or (clockFault? hour minute second)

/-- A point in time, as it is written; a line end may follow it. -/
def time (s : String) : Except Fault Value :=
  let line := s.toList
  match timeFault? (if line.getLast? == some '\n' then line.dropLast else line) with
  | some fault => .error fault
  | none => .ok (.time s)

/-- Bytes in Base64; those that are UTF-8 count as the text. -/
def binary (s : List Char) : Except Fault Value :=
  match if s.all fun c => c.val < 0x80 then Text.Base64.decode? s else none with
  | none => .error .unfit
  | some data =>
    match Text.ofUtf8 data with
    | .ok text => .ok (.text (String.ofList text))
    | .error _ => .ok (.bytes data)

/-- The value of a plain scalar; the two marks have none. -/
def plain (s : String) : Except Fault Value :=
  match Plain.ofText s with
  | .null => .ok .null
  | .bool => (bool s).map .bool
  | .int => (int s.toList).map .int
  | .real => (real s.toList).map .real
  | .time => time s
  | .text => .ok (.text s)
  | .merge => .error .unfit
  | .equals => .error .unfit

end Literal

end CodeAtlas.Yaml
