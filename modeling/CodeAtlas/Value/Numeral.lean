import CodeAtlas.Number.Reading
import CodeAtlas.Text.Casing
import CodeAtlas.Value.Fault

/-!
Numbers and truth values as values give them. A number may also be written as a text, with blanks
around it, leading zeros, grouped digits, or, for a whole number, a fraction of zeros; a whole
number that is given as a real one has to fit in 64 bits, one that is written out does not.
-/

namespace CodeAtlas.Decode

open Checked Number

/-- Blanks around a number in a text; the information separators are none. -/
def isSpacing (c : Char) : Bool :=
  Text.isBlank c && !(0x1c ≤ c.val && c.val ≤ 0x1f)

/-- Without the blanks around it. -/
def withoutSpacing (s : List Char) : List Char :=
  ((s.dropWhile isSpacing).reverse.dropWhile isSpacing).reverse

/-- So many characters of sign and digits are read as a whole number. -/
def maxIntLength : Nat := 4300

/-- A whole number in its one form: an optional minus, and digits that do not start with a zero
unless there is but one. Too long a start is oversized whatever follows it. -/
def plainInt (s : List Char) : Checked Int :=
  let (negative, rest) := match s with
    | '-' :: rest => (true, rest)
    | _ => (false, s)
  let (ds, after) := digits rest
  if ds.isEmpty then fail .unreadableInt
  else if ds.head? == some '0' then if rest == ['0'] then ok 0 else fail .unreadableInt
  else if maxIntLength < ds.length + (if negative then 1 else 0) then fail .oversizedInt
  else if !after.isEmpty then fail .unreadableInt
  else
    let n : Int := digitsValue ds
    ok (if negative then -n else n)

/-- Starts the digits of a number that has no zeros before it. -/
def isLeading (c : Char) : Bool :=
  '1' ≤ c && c ≤ '9'

/-- Without the zeros, and the underscores among them, at the start; the last one stays when
nothing or a point follows it. A minus may stand behind the zeros, but not in front without any. -/
def withoutLeadingZeros? (s : List Char) : Option (List Char) :=
  match s with
  | '0' :: rest => go '0' rest
  | c :: _ => if isLeading c then some s else none
  | [] => none
where
  /-- `last` is the character that was left out last. -/
  go (last : Char) : List Char → Option (List Char)
    | [] => some [last]
    | c :: rest =>
      if c == '0' || c == '_' then go c rest
      else if isLeading c || c == '-' then some (c :: rest)
      else if c == '.' then some (last :: c :: rest)
      else none

/-- Without a fraction of zeros, one at least. -/
def withoutZeroFraction (s : List Char) : List Char :=
  let fraction := (s.dropWhile (· != '.')).drop 1
  if !fraction.isEmpty && fraction.all (· == '0') then s.takeWhile (· != '.') else s

/-- A whole number in its one form from one with blanks, a plus, zeros or underscores. -/
def cleanInt? (s : List Char) : Option (List Char) := do
  let (negative, rest) := signed (withoutSpacing s)
  let kept := withoutZeroFraction (← withoutLeadingZeros? rest)
  let ungrouped := (looselyUngrouped? kept).getD kept
  return if negative then '-' :: ungrouped else ungrouped

/-- A whole number written as a text. -/
def intOfText (s : List Char) : Checked Int :=
  match plainInt s with
  | .bad [⟨[], .unreadableInt⟩] =>
    match cleanInt? s with
    | some cleaned => plainInt cleaned
    | none => fail .unreadableInt
  | read => read

/-- The numbers that 64 bits hold. -/
def fitsWord (n : Int) : Bool :=
  decide (-9223372036854775808 ≤ n) && decide (n ≤ 9223372036854775807)

/-- The whole number a real number is, when it is one. -/
def wholeOf (x : Float) : Checked Int :=
  match Kind.ofFloat x with
  | .finite d =>
    let (num, den) := d.quotient
    if num % den != 0 then fail .fractionalInt
    else if num / den < 9223372036854775808 then ok d.truncated
    else fail .oversizedInt
  | _ => fail .notFinite

/-- A whole number; truth values, whole real numbers and texts of whole numbers are read as such. -/
def int : Value → Checked Int
  | .int n => ok n
  | .bool b => ok (if b then 1 else 0)
  | .real x => wholeOf x
  | .text s => intOfText s.toList
  | .bytes _ => fail .unreadableInt
  | _ => fail .notInt

/-- A real number written as a text: with blanks around it, or else with grouped digits. -/
def realOfText? (s : List Char) : Option Float :=
  (real? (withoutSpacing s)).or ((looselyUngrouped? s).bind real?)

/-- A real number; truth values, whole numbers in its range and texts of numbers are read as such.
-/
def real : Value → Checked Float
  | .real x => ok x
  | .int n =>
    match nearest? (n < 0) n.natAbs 1 with
    | some x => ok x
    | none => fail .notReal
  | .bool b => ok (if b then 1.0 else 0.0)
  | .text s =>
    match realOfText? s.toList with
    | some x => ok x
    | none => fail .unreadableReal
  | .bytes _ => fail .unreadableReal
  | _ => fail .notReal

/-- The words for truth and falsehood, in any case of letters. -/
def boolOfText? (s : String) : Option Bool :=
  let word := String.ofList (s.toList.map Char.toLower)
  if ["1", "on", "t", "true", "y", "yes"].contains word then some true
  else if ["0", "off", "f", "false", "n", "no"].contains word then some false
  else none

/-- One and zero. -/
def boolOfInt (n : Int) : Checked Bool :=
  if n == 0 then ok false
  else if n == 1 then ok true
  else if fitsWord n then fail .unreadableBool
  else fail .notBool

/-- A truth value; one and zero and the usual words are read as such. -/
def bool : Value → Checked Bool
  | .bool b => ok b
  | .int n => boolOfInt n
  | .real x =>
    match wholeOf x with
    | .ok n => boolOfInt n
    | .bad _ => fail .notBool
  | .text s =>
    match boolOfText? s with
    | some b => ok b
    | none => fail .unreadableBool
  | .bytes _ => fail .unreadableBool
  | _ => fail .notBool

end CodeAtlas.Decode
