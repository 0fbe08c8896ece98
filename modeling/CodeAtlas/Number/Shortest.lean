import CodeAtlas.Number.Dyadic

/-!
The shortest decimal that reads back as a floating-point number. The reals that round to `m · 2 ^ e`
form an interval around it, ends included exactly when `m` is even; of the decimals with the fewest
digits inside it the nearest to the number is taken, and of two equally near ones the even one.
-/

namespace CodeAtlas.Number

/-- The decimal `digits · 10 ^ exponent`. -/
structure Decimal where
  digits : Nat
  exponent : Int

/-- The interval of reals that round to `d`, over a common denominator: low end, value, high end,
denominator, and whether the ends belong to it. -/
structure Interval where
  low : Nat
  value : Nat
  high : Nat
  den : Nat
  closed : Bool

/-- The interval of a positive number. Below a power of two the spacing is half as wide. -/
def Dyadic.interval (d : Dyadic) : Interval :=
  let narrow := d.mantissa == twoPow 52 && -1074 < d.exponent
  let (num, den) := Dyadic.quotient ⟨false, 1, d.exponent⟩
  let unit := num
  ⟨(4 * d.mantissa - (if narrow then 1 else 2)) * unit, 4 * d.mantissa * unit,
    (4 * d.mantissa + 2) * unit, 4 * den, d.mantissa % 2 == 0⟩

/-- The largest `k` with `10 ^ k ≤ num / den`, for positive numbers. -/
def decimalExponent (num den : Nat) : Int :=
  if den ≤ num then ((Nat.toDigits 10 (num / den)).length : Int) - 1
  else
    let guess := (Nat.toDigits 10 (den / num)).length - 1
    -- `10 ^ guess ≤ den / num`, so the answer is `-guess` or one less
    if den ≤ num * tenPow guess then -(guess : Int) else -(guess + 1 : Int)

/-- `digits · 10 ^ exponent` lies in the interval. -/
def Interval.holds (i : Interval) (x : Decimal) : Bool :=
  let (num, den) :=
    if 0 ≤ x.exponent then (x.digits * tenPow x.exponent.toNat * i.den, 1)
    else (x.digits * i.den, tenPow (-x.exponent).toNat)
  if i.closed then i.low * den ≤ num && num ≤ i.high * den
  else i.low * den < num && num < i.high * den

/-- The neighbours of the value on the grid of multiples of `10 ^ exponent` that lie in the
interval, nearest first. -/
def Interval.neighbours (i : Interval) (exponent : Int) : List Decimal :=
  let (num, den) :=
    if 0 ≤ exponent then (i.value, i.den * tenPow exponent.toNat)
    else (i.value * tenPow (-exponent).toNat, i.den)
  let below := num / den
  let twice := 2 * (num % den)
  let belowFirst := twice < den || (twice == den && below % 2 == 0)
  let ordered := if belowFirst then [below, below + 1] else [below + 1, below]
  (ordered.map (⟨·, exponent⟩)).filter i.holds

/-- The shortest decimal of a positive number: grids of one, two, … seventeen digits are tried, and
the exact neighbour on the last grid always reads back. -/
def Dyadic.shortest (d : Dyadic) : Decimal :=
  let i := d.interval
  let top := decimalExponent i.value i.den
  let found := (List.range 17).findSome? fun (extra : Nat) => (i.neighbours (top - extra)).head?
  found.getD ⟨0, 0⟩

/-- The significant digits without trailing zeros, and the decimal point's place: the value is
`0.d₁d₂… · 10 ^ point`. -/
def Decimal.significant (x : Decimal) : List Char × Int :=
  let digits := Nat.toDigits 10 x.digits
  let kept := (digits.reverse.dropWhile (· == '0')).reverse
  (kept, digits.length + x.exponent)

/-- When a number is written with an exponent and how. -/
structure FloatStyle where
  /-- Positional when the decimal point's place lies from `leastPoint` to `mostPoint`. -/
  leastPoint : Int
  mostPoint : Int
  /-- A whole number ends in `.0`. -/
  keepFraction : Bool
  /-- Digits of the exponent at least. -/
  exponentDigits : Nat
  infinity : String
  notANumber : String

/-- Digits and point written in a style. -/
def FloatStyle.write (style : FloatStyle) (negative : Bool) (digits : List Char) (point : Int) :
    String :=
  let sign := if negative then "-" else ""
  let size : Int := digits.length
  if style.leastPoint ≤ point && point ≤ style.mostPoint then
    if point ≤ 0 then
      sign ++ "0." ++ String.ofList (List.replicate (-point).toNat '0' ++ digits)
    else if size ≤ point then
      sign ++ String.ofList (digits ++ List.replicate (point - size).toNat '0') ++
        (if style.keepFraction then ".0" else "")
    else
      sign ++ String.ofList (digits.take point.toNat) ++ "." ++
        String.ofList (digits.drop point.toNat)
  else
    let e := point - 1
    let mark := if e < 0 then "e-" else "e+"
    let mantissa := match digits with
      | [] => "0"
      | [only] => only.toString
      | first :: rest => first.toString ++ "." ++ String.ofList rest
    sign ++ mantissa ++ mark ++ paddedDigits style.exponentDigits e.natAbs

/-- The shortest text that reads back. -/
def FloatStyle.shortest (style : FloatStyle) (x : Float) : String :=
  match Kind.ofFloat x with
  | .notANumber => style.notANumber
  | .infinite negative => (if negative then "-" else "") ++ style.infinity
  | .finite d =>
    if d.mantissa == 0 then style.write d.negative ['0'] 1
    else
      let (digits, point) := d.shortest.significant
      style.write d.negative digits point

/-- The text with at most `count` significant digits, a half to the even digit. -/
def FloatStyle.general (style : FloatStyle) (count : Nat) (x : Float) : String :=
  match Kind.ofFloat x with
  | .notANumber => style.notANumber
  | .infinite negative => (if negative then "-" else "") ++ style.infinity
  | .finite d =>
    if d.mantissa == 0 then style.write d.negative ['0'] 1
    else
      let (num, den) := d.quotient
      let exponent := decimalExponent num den - (count - 1 : Nat)
      let rounded :=
        if 0 ≤ exponent then roundDiv num (den * tenPow exponent.toNat)
        else roundDiv (num * tenPow (-exponent).toNat) den
      let (digits, point) := Decimal.significant ⟨rounded, exponent⟩
      style.write d.negative digits point

/-- Numbers in messages and value texts: positional from `0.0001` up to sixteen digits, always with
a fraction or an exponent. -/
def plain : FloatStyle := ⟨-3, 16, true, 2, "inf", "nan"⟩

/-- Numbers in summaries: up to six digits, positional from `0.0001` below a million, no empty
fraction. -/
def brief : FloatStyle := ⟨-3, 6, false, 2, "inf", "nan"⟩

end CodeAtlas.Number
