import CodeAtlas.Number.Reading
import CodeAtlas.Text.Quoted
import CodeAtlas.Value.Basic

/-!
JSON text. Reading accepts the standard grammar and the three words for numbers that are not finite;
a number with a fraction or an exponent is real, any other is whole. Of equal keys the last wins.
Writing escapes everything outside printable ASCII and puts no blanks between tokens.
-/

namespace CodeAtlas

namespace Json

open Number (digits digitsValue exponent)

/-- Blanks between tokens. -/
def isSpace (c : Char) : Bool :=
  c == ' ' || c == '\t' || c == '\n' || c == '\r'

/-- Without leading blanks. -/
def skip (s : List Char) : List Char :=
  s.dropWhile isSpace

/-- The value of a hexadecimal digit. -/
def hexDigit? (c : Char) : Option Nat :=
  if c.isDigit then some (c.toNat - '0'.toNat)
  else if 'a' ≤ c && c ≤ 'f' then some (c.toNat - 'a'.toNat + 10)
  else if 'A' ≤ c && c ≤ 'F' then some (c.toNat - 'A'.toNat + 10)
  else none

/-- Four hexadecimal digits. -/
def hex4? : List Char → Option (Nat × List Char)
  | a :: b :: c :: d :: rest => do
    let a ← hexDigit? a
    let b ← hexDigit? b
    let c ← hexDigit? c
    let d ← hexDigit? d
    return (((a * 16 + b) * 16 + c) * 16 + d, rest)
  | _ => none

/-- A unit that opens a surrogate pair. -/
def isHigh (n : Nat) : Bool :=
  0xd800 ≤ n && n < 0xdc00

/-- A unit that closes a surrogate pair. -/
def isLow (n : Nat) : Bool :=
  0xdc00 ≤ n && n < 0xe000

/-- The character of a unit; a lone surrogate has none and becomes U+FFFD. -/
def charOf (n : Nat) : Char :=
  if isHigh n || isLow n then '\ufffd' else Char.ofNat n

/-- What stands after a backslash. -/
def escape? : List Char → Option (Char × List Char)
  | '\x22' :: rest => some ('\x22', rest)
  | '\\' :: rest => some ('\\', rest)
  | '/' :: rest => some ('/', rest)
  | 'b' :: rest => some ('\x08', rest)
  | 'f' :: rest => some ('\x0c', rest)
  | 'n' :: rest => some ('\n', rest)
  | 'r' :: rest => some ('\r', rest)
  | 't' :: rest => some ('\t', rest)
  | 'u' :: rest => do
    let (n, rest) ← hex4? rest
    match rest with
    | '\\' :: 'u' :: more =>
      match hex4? more with
      | some (m, more) =>
        if isHigh n && isLow m then
          some (Char.ofNat (0x10000 + (n - 0xd800) * 0x400 + (m - 0xdc00)), more)
        else some (charOf n, rest)
      | none => some (charOf n, rest)
    | _ => some (charOf n, rest)
  | _ => none

/-- The text up to the closing quote. `done` is what was read, nearest character first. -/
def string? (fuel : Nat) (done : List Char) (s : List Char) : Option (String × List Char) :=
  match fuel, s with
  | _, [] => none
  | 0, _ => none
  | fuel + 1, c :: rest =>
    if c == '\x22' then some (String.ofList done.reverse, rest)
    else if c == '\\' then do
      let (c, rest) ← escape? rest
      string? fuel (c :: done) rest
    else if c.val < 0x20 then none
    else string? fuel (c :: done) rest

/-- A number without its sign. -/
def magnitude? (negative : Bool) (s : List Char) : Option (Value × List Char) :=
  let (whole, rest) := digits s
  let whole := if whole.head? == some '0' then ['0'] else whole
  let rest := if whole == ['0'] then s.drop 1 else rest
  if whole.isEmpty then none
  else
    let (fraction, afterFraction) := match rest with
      | '.' :: more =>
        let (ds, after) := digits more
        if ds.isEmpty then ([], rest) else (ds, after)
      | _ => ([], rest)
    let (power, afterPower) := exponent afterFraction
    if fraction.isEmpty && power.isNone then
      let n : Int := digitsValue whole
      some (.int (if negative then -n else n), rest)
    else
      some (.real (Number.ofDecimal negative (digitsValue (whole ++ fraction))
        (power.getD 0 - fraction.length)), afterPower)

/-- A number, or one of the words for numbers that are not finite. -/
def number? (s : List Char) : Option (Value × List Char) :=
  let word (w : String) (x : Float) : Option (Value × List Char) :=
    if w.toList.isPrefixOf s then some (.real x, s.drop w.length) else none
  (word "NaN" (0.0 / 0.0)).or <| (word "Infinity" (1.0 / 0.0)).or <|
    (word "-Infinity" (-1.0 / 0.0)).or <|
    match s with
    | '-' :: rest => magnitude? true rest
    | _ => magnitude? false s

mutual

/-- A value at the start of the text, and what follows it. -/
def value? (fuel : Nat) (s : List Char) : Option (Value × List Char) :=
  match fuel with
  | 0 => none
  | fuel + 1 =>
    let s := skip s
    match s with
    | [] => none
    | '\x22' :: rest => (string? rest.length [] rest).map fun (t, rest) => (.text t, rest)
    | '\x7b' :: rest =>
      match skip rest with
      | '\x7d' :: rest => some (.object [], rest)
      | rest => entries? fuel [] rest
    | '[' :: rest =>
      match skip rest with
      | ']' :: rest => some (.list [], rest)
      | rest => items? fuel [] rest
    | _ =>
      if "null".toList.isPrefixOf s then some (.null, s.drop 4)
      else if "true".toList.isPrefixOf s then some (.bool true, s.drop 4)
      else if "false".toList.isPrefixOf s then some (.bool false, s.drop 5)
      else number? s

/-- The items of a list up to its closing bracket; `done` holds those read, latest first. -/
def items? (fuel : Nat) (done : List Value) (s : List Char) : Option (Value × List Char) :=
  match fuel with
  | 0 => none
  | fuel + 1 =>
    match value? fuel s with
    | none => none
    | some (v, rest) =>
      match skip rest with
      | ',' :: rest => items? fuel (v :: done) rest
      | ']' :: rest => some (.list (v :: done).reverse, rest)
      | _ => none

/-- The entries of an object up to its closing brace; `done` holds those read, latest first. -/
def entries? (fuel : Nat) (done : List (String × Value)) (s : List Char) :
    Option (Value × List Char) :=
  match fuel with
  | 0 => none
  | fuel + 1 =>
    match skip s with
    | '\x22' :: rest =>
      match string? rest.length [] rest with
      | none => none
      | some (key, rest) =>
        match skip rest with
        | ':' :: rest =>
          match value? fuel rest with
          | none => none
          | some (v, rest) =>
            match skip rest with
            | ',' :: rest => entries? fuel ((key, v) :: done) rest
            | '\x7d' :: rest => some (.object (Value.ofEntries ((key, v) :: done).reverse), rest)
            | _ => none
        | _ => none
    | _ => none

end

/-- The value a whole text writes. -/
def parse? (s : String) : Option Value :=
  let chars := s.toList
  match value? (2 * chars.length + 2) chars with
  | some (v, rest) => if (skip rest).isEmpty then some v else none
  | none => none

/-- One character inside quotes. -/
def escaped (c : Char) : List Char :=
  let unit (n : Nat) : List Char := '\\' :: 'u' :: Text.hexDigits 4 n
  if c == '\x22' || c == '\\' then ['\\', c]
  else if 0x20 ≤ c.val && c.val < 0x7f then [c]
  else if c.val < 0x10000 then unit c.toNat
  else
    let n := c.toNat - 0x10000
    unit (0xd800 + n / 0x400) ++ unit (0xdc00 + n % 0x400)

/-- A text in quotes. -/
def quote (s : String) : String :=
  String.ofList ('\x22' :: s.toList.flatMap escaped ++ ['\x22'])

mutual

/-- A value as text; `real` writes the real numbers. -/
def write (real : Float → String) : Value → String
  | .null => "null"
  | .bool b => if b then "true" else "false"
  | .int n => toString n
  | .real x => real x
  | .text s => quote s
  | .time s => quote s
  | .bytes data => quote (String.ofList (data.map fun b => Char.ofNat b.toNat))
  | .list items => "[" ++ ",".intercalate (writeItems real items) ++ "]"
  | .object entries => "\x7b" ++ ",".intercalate (writeEntries real entries) ++ "\x7d"

/-- Items as texts. -/
def writeItems (real : Float → String) : List Value → List String
  | [] => []
  | v :: rest => write real v :: writeItems real rest

/-- Entries as texts. -/
def writeEntries (real : Float → String) : List (String × Value) → List String
  | [] => []
  | (key, v) :: rest => (quote key ++ ":" ++ write real v) :: writeEntries real rest

end

end Json

end CodeAtlas
