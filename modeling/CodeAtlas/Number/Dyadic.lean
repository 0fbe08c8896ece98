/-!
Exact reading of floating-point numbers and rounding of exact quotients. A finite number is
`± mantissa · 2 ^ exponent`; everything that prints or rounds one works on that exact value.
-/

namespace CodeAtlas.Number

/-- `2 ^ n`. -/
def twoPow (n : Nat) : Nat :=
  Nat.pow 2 n

/-- `10 ^ n`. -/
def tenPow (n : Nat) : Nat :=
  Nat.pow 10 n

/-- The exact value `± mantissa · 2 ^ exponent` of a finite floating-point number. -/
structure Dyadic where
  negative : Bool
  mantissa : Nat
  exponent : Int

/-- What a floating-point number is. -/
inductive Kind where
  | finite (value : Dyadic)
  | infinite (negative : Bool)
  | notANumber

/-- Reads the sign, exponent and fraction fields of the IEEE binary64 format. -/
def Kind.ofFloat (x : Float) : Kind :=
  let bits := x.toBits.toNat
  let negative := bits / twoPow 63 == 1
  let field : Nat := bits / twoPow 52 % twoPow 11
  let fraction := bits % twoPow 52
  if field == 2047 then
    if fraction == 0 then .infinite negative else .notANumber
  else if field == 0 then .finite ⟨negative, fraction, -1074⟩
  else .finite ⟨negative, twoPow 52 + fraction, (field : Int) - 1075⟩

/-- The magnitude as a quotient of natural numbers. -/
def Dyadic.quotient (d : Dyadic) : Nat × Nat :=
  if 0 ≤ d.exponent then (d.mantissa * twoPow d.exponent.toNat, 1)
  else (d.mantissa, twoPow (-d.exponent).toNat)

/-- `num / den` to the nearest whole number, a half to the even neighbour. -/
def roundDiv (num den : Nat) : Nat :=
  let q := num / den
  let twice := 2 * (num % den)
  if twice < den then q
  else if den < twice then q + 1
  else q + q % 2

/-- The smallest whole number that is not below a finite one. -/
def Dyadic.ceil (d : Dyadic) : Int :=
  let (num, den) := d.quotient
  if d.negative then -((num / den : Nat) : Int) else ((num + den - 1) / den : Nat)

/-- The largest whole number that is not above a finite one. -/
def Dyadic.floor (d : Dyadic) : Int :=
  -(Dyadic.ceil { d with negative := !d.negative })

/-- The whole number nearest to zero on the way to a finite one. -/
def Dyadic.truncated (d : Dyadic) : Int :=
  if d.negative then d.ceil else d.floor

/-- The largest `k` with `2 ^ k ≤ num / den`, for positive numbers. -/
def binaryExponent (num den : Nat) : Int :=
  -- the quotient lies strictly between `2 ^ (guess - 1)` and `2 ^ (guess + 1)`
  let guess : Int := (num.log2 : Int) - den.log2
  let reached :=
    if 0 ≤ guess then decide (den * twoPow guess.toNat ≤ num)
    else decide (den ≤ num * twoPow (-guess).toNat)
  if reached then guess else guess - 1

/-- The floating-point number nearest to `± num / den`, a half to the even mantissa; none when it
rounds beyond the largest one. The format's fields follow one another without a gap, so a mantissa
that rounds up to the next power of two carries into the exponent field. -/
def nearest? (negative : Bool) (num den : Nat) : Option Float :=
  let sign := if negative then twoPow 63 else 0
  if num == 0 then some (Float.ofBits (UInt64.ofNat sign))
  else
    let exponent := max (binaryExponent num den - 52) (-1074)
    let mantissa :=
      if 0 ≤ exponent then roundDiv num (den * twoPow exponent.toNat)
      else roundDiv (num * twoPow (-exponent).toNat) den
    let bits := (exponent + 1074).toNat * twoPow 52 + mantissa
    if bits < 2047 * twoPow 52 then some (Float.ofBits (UInt64.ofNat (sign + bits))) else none

/-- The infinite number of a sign. -/
def infinity (negative : Bool) : Float :=
  if negative then -1.0 / 0.0 else 1.0 / 0.0

/-- The floating-point number nearest to `± num / den`, infinite beyond the largest one. -/
def nearest (negative : Bool) (num den : Nat) : Float :=
  (nearest? negative num den).getD (infinity negative)

/-- The nearest floating-point number to `± digits · 10 ^ exponent`. Exponents far outside the range
of the format give zero or infinity at once. -/
def ofDecimal (negative : Bool) (digits : Nat) (exponent : Int) : Float :=
  let size : Int := (Nat.toDigits 10 digits).length
  if digits == 0 || size + exponent < -400 then nearest negative 0 1
  else if 400 < size + exponent then infinity negative
  else if 0 ≤ exponent then nearest negative (digits * tenPow exponent.toNat) 1
  else nearest negative digits (tenPow (-exponent).toNat)

/-- Rounded to `places` decimal places: the exact value goes to the nearest multiple of
`10 ^ -places`, a half to the even one, and that to the nearest floating-point number. -/
def roundTo (places : Nat) (x : Float) : Float :=
  match Kind.ofFloat x with
  | .finite d =>
    let (num, den) := d.quotient
    ofDecimal d.negative (roundDiv (num * tenPow places) den) (-places)
  | _ => x

/-- A natural number as digits, padded with zeros on the left to `width`. -/
def paddedDigits (width n : Nat) : String :=
  let digits := Nat.toDigits 10 n
  String.ofList (List.replicate (width - digits.length) '0' ++ digits)

/-- How the numbers without digits are written, and whether the sign of a rounded zero is shown. -/
structure FixedStyle where
  infinity : String
  notANumber : String
  signedZero : Bool

/-- A number with exactly `places` decimals, a half to the even digit. -/
def fixed (style : FixedStyle) (places : Nat) (x : Float) : String :=
  match Kind.ofFloat x with
  | .notANumber => style.notANumber
  | .infinite negative => (if negative then "-" else "") ++ style.infinity
  | .finite d =>
    let (num, den) := d.quotient
    let scaled := roundDiv (num * tenPow places) den
    let sign := if d.negative && (style.signedZero || scaled != 0) then "-" else ""
    let whole := toString (scaled / tenPow places)
    if places == 0 then sign ++ whole
    else sign ++ whole ++ "." ++ paddedDigits places (scaled % tenPow places)

end CodeAtlas.Number
