import CodeAtlas.Number.Dyadic
import CodeAtlas.Text.Basic

/-!
Numbers written in decimal: a sign, digits with an optional point, an optional exponent, and the
words for the numbers that are not finite. Underscores group digits in two ways: strictly, with a
digit on both sides of each, or loosely, never at an end and never two in a row.
-/

namespace CodeAtlas.Number

/-- The number the digits write. -/
def digitsValue (digits : List Char) : Nat :=
  digits.foldl (fun n c => n * 10 + (c.toNat - '0'.toNat)) 0

/-- Leading digits, and the rest. -/
def digits (s : List Char) : List Char × List Char :=
  (s.takeWhile Char.isDigit, s.dropWhile Char.isDigit)

/-- A sign and what follows it; without a sign a number is not negative. -/
def signed (s : List Char) : Bool × List Char :=
  match s with
  | '-' :: rest => (true, rest)
  | '+' :: rest => (false, rest)
  | _ => (false, s)

/-- An optional exponent: its value and the rest. -/
def exponent (s : List Char) : Option Int × List Char :=
  match s with
  | e :: rest =>
    if e == 'e' || e == 'E' then
      let (negative, rest) := signed rest
      let (ds, more) := digits rest
      if ds.isEmpty then (none, s)
      else
        let n : Int := digitsValue ds
        (some (if negative then -n else n), more)
    else (none, s)
  | [] => (none, s)

/-- A decimal number without its sign: digits with an optional point, at least one digit, and an
optional exponent. -/
def decimal? (negative : Bool) (s : List Char) : Option Float :=
  let (whole, rest) := digits s
  let (fraction, rest) := match rest with
    | '.' :: more => digits more
    | _ => ([], rest)
  if whole.isEmpty && fraction.isEmpty then none
  else
    let (power, rest) := exponent rest
    if rest.isEmpty then
      some (ofDecimal negative (digitsValue (whole ++ fraction)) (power.getD 0 - fraction.length))
    else none

/-- A decimal number, an infinity, or the word for what is no number, in any case of letters. -/
def real? (s : List Char) : Option Float :=
  let (negative, rest) := signed s
  let word := String.ofList (rest.map Char.toLower)
  if word == "inf" || word == "infinity" then some (infinity negative)
  else if word == "nan" then some (0.0 / 0.0)
  else decimal? negative rest

/-- Without underscores, each of which stands between two digits. -/
def ungrouped? (s : List Char) : Option (List Char) :=
  go none s
where
  /-- `last` is the character before. -/
  go (last : Option Char) : List Char → Option (List Char)
    | [] => some []
    | c :: rest =>
      if c == '_' then
        if last.any Char.isDigit && rest.head?.any Char.isDigit then go (some c) rest else none
      else (go (some c) rest).map (c :: ·)

/-- Without underscores, none of which stands at an end or beside another. -/
def looselyUngrouped? (s : List Char) : Option (List Char) :=
  if s.head? == some '_' || s.getLast? == some '_' || Text.occursIn ['_', '_'] s then none
  else some (s.filter (· != '_'))

/-- A blank beside a number; the information separators are none. -/
def isMargin (c : Char) : Bool :=
  c == ' ' || (0x09 ≤ c.val && c.val ≤ 0x0d)

/-- Without the blanks at both ends. -/
def withoutMargins (s : List Char) : List Char :=
  ((s.dropWhile isMargin).reverse.dropWhile isMargin).reverse

/-- A whole number with a sign, blanks around it and grouped digits. -/
def whole? (s : List Char) : Option Int := do
  let (negative, rest) := signed (withoutMargins s)
  let ds ← ungrouped? rest
  if !ds.isEmpty && ds.all Char.isDigit then
    let n : Int := digitsValue ds
    return if negative then -n else n
  else none

end CodeAtlas.Number
