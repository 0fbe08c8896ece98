import CodeAtlas.Value.Numeral
import CodeAtlas.Value.Timestamp

/-!
Points in time as values give them: in writing, or as a number that counts from 1970, seconds while
it is small and milliseconds beyond. Years from 1600 to 9999 can be counted.
-/

namespace CodeAtlas.Decode

open Checked Number

/-- Above this magnitude a number counts milliseconds, below it seconds. -/
def millisecondsFrom : Nat := 20000000000

/-- The first and the last second that can be counted. -/
def firstSecond : Int := -11676096000

/-- The last second that can be counted. -/
def lastSecond : Int := 253402300799

/-- The time a count of seconds or milliseconds gives, and so many microseconds more. -/
def timeOfCount? (count : Int) (micros : Nat) : Option Timestamp :=
  let millis := millisecondsFrom < count.natAbs
  let seconds := if millis then count / 1000 else count
  let extra : Int := if millis then count % 1000 * 1000 else 0
  let total := seconds * 1000000 + extra + micros
  let second := total / 1000000
  if firstSecond ≤ second && second ≤ lastSecond then some (Timestamp.ofMicros total) else none

/-- The time a count with a fraction gives, to the nearest microsecond. -/
def timeOfReal? (x : Float) : Option Timestamp :=
  let scaled := if millisecondsFrom.toFloat < x.abs then x / 1000 else x
  match Kind.ofFloat scaled with
  | .finite d =>
    let micros := ((scaled - scaled.floor) * 1000000).round
    timeOfCount? d.floor micros.toUInt64.toNat
  | _ => none

/-- What follows a point in a count, each digit a tenth of the one before. -/
def addFraction (x scale : Float) : List Char → Float
  | [] => x
  | c :: rest => addFraction (x + (c.toNat - '0'.toNat).toFloat / scale) (scale * 10) rest

/-- The time that a count in writing gives; the part before the point fits in 64 bits. -/
def timeOfNumeral? (s : List Char) : Option Timestamp :=
  let (negative, rest) := signed s
  let (ds, after) := digits rest
  let whole : Nat := digitsValue ds
  if !fitsWord whole then none
  else match after with
    | [] => if ds.isEmpty then none else timeOfCount? (if negative then -(whole : Int) else whole) 0
    | '.' :: fraction =>
      if !fraction.all Char.isDigit then none
      else
        let x := addFraction (nearest false whole 1) 10 fraction
        timeOfReal? (if negative then -x else x)
    | _ => none

/-- The time that a number gives. -/
def timeOfNumber (found : Option Timestamp) : Checked Timestamp :=
  match found with
  | some t => ok t
  | none => fail .impossibleTime

/-- A time; numbers count from 1970. -/
def time : Value → Checked Timestamp
  | .text s =>
    match Timestamp.parse? s with
    | some t => if t.year == 0 then fail .impossibleTime else ok t
    | none =>
      match timeOfNumeral? s.toList with
      | some t => ok t
      | none => fail .unreadableTime
  | .int n =>
    timeOfNumber <|
      if fitsWord n then timeOfCount? n 0
      else match nearest? (n < 0) n.natAbs 1 with
        | some x => timeOfReal? x
        | none => none
  | .real x => timeOfNumber (timeOfReal? x)
  | _ => fail .notTime

end CodeAtlas.Decode
