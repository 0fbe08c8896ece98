import CodeAtlas.Text.Basic
import CodeAtlas.Text.Casing

/-!
Hosts of addresses: numeric ones of the fourth and the sixth version, and names, whose labels are
put into ASCII where they hold other letters.
-/

/-! ### Punycode

Punycode: a text as ASCII letters and digits. The ASCII characters stand first; the others follow in
ascending order as the distance from each to the next, over all places they could stand in, written
with digits to the base 36 whose thresholds adapt to the distances seen so far.
-/

namespace CodeAtlas.Text.Punycode

/-- A digit: `a` to `z`, then `0` to `9`. -/
def digit (d : Nat) : Char :=
  if d < 26 then Char.ofNat ('a'.toNat + d) else Char.ofNat ('0'.toNat + d - 26)

/-- The threshold of the digit at the place `k`. -/
def threshold (k bias : Nat) : Nat :=
  if k ≤ bias then 1 else if bias + 26 ≤ k then 26 else k - bias

theorem threshold_pos (k bias : Nat) : 1 ≤ threshold k bias := by
  unfold threshold
  repeat' split
  all_goals omega

/-- A distance in digits; the last one lies below its threshold. -/
def distance (bias k q : Nat) : List Char :=
  let t := threshold k bias
  if q < t then [digit q]
  else digit (t + (q - t) % (36 - t)) :: distance bias (k + 36) ((q - t) / (36 - t))
termination_by q
decreasing_by
  have := threshold_pos k bias
  exact Nat.lt_of_le_of_lt (Nat.div_le_self _ _) (by omega)

/-- A distance divided until it is small, and 36 for each division. -/
def shrunk (delta k : Nat) : Nat × Nat :=
  if 455 < delta then shrunk (delta / 35) (k + 36) else (delta, k)
termination_by delta
decreasing_by exact Nat.div_lt_self (by omega) (by omega)

/-- The thresholds' place after a distance, with so many characters written. -/
def adapted (delta written : Nat) (first : Bool) : Nat :=
  let halved := if first then delta / 700 else delta / 2
  let (small, k) := shrunk (halved + halved / written) 0
  k + 36 * small / (small + 38)

/-- What has been written: latest digit first, the distance owed, the thresholds' place, and how
many characters. -/
structure Progress where
  digits : List Char
  delta : Nat
  bias : Nat
  written : Nat

/-- Passes one character while the characters `target` are written; `basic` of them are ASCII. -/
def pass (basic target : Nat) (p : Progress) (c : Char) : Progress :=
  if c.toNat < target then { p with delta := p.delta + 1 }
  else if c.toNat == target then
    { digits := (distance p.bias 36 p.delta).reverse ++ p.digits
      delta := 0
      bias := adapted p.delta (p.written + 1) (p.written == basic)
      written := p.written + 1 }
  else p

/-- Writes the characters of each code point in turn; those below `next` are written. -/
def write (text : List Char) (basic : Nat) : List Nat → Nat → Progress → Progress
  | [], _, p => p
  | target :: rest, next, p =>
    let start := { p with delta := p.delta + (target - next) * (p.written + 1) }
    let passed := text.foldl (pass basic target) start
    write text basic rest (target + 1) { passed with delta := passed.delta + 1 }

/-- The code points that are not ASCII, ascending and each once. -/
def targets (text : List Char) : List Nat :=
  let codes := (text.filter fun c => 0x80 ≤ c.toNat).map Char.toNat
  (codes.mergeSort fun a b => decide (a ≤ b)).eraseDups

/-- A text in Punycode. -/
def encode (text : List Char) : List Char :=
  let basic := text.filter fun c => c.toNat < 0x80
  let p := write text basic.length (targets text) 0x80 ⟨[], 0, 72, basic.length⟩
  basic ++ (if basic.isEmpty then [] else ['-']) ++ p.digits.reverse

end CodeAtlas.Text.Punycode

namespace CodeAtlas.Address

/-- The value of a hexadecimal digit. -/
def isHexDigit (c : Char) : Bool :=
  c.isDigit || ('a' ≤ c && c ≤ 'f') || ('A' ≤ c && c ≤ 'F')

/-- Four groups of digits with any character between each two. -/
def resemblesV4 (host : List Char) : Bool :=
  go 3 false host
where
  /-- So many groups follow; `begun` says that the present one has a digit. -/
  go (groups : Nat) (begun : Bool) : List Char → Bool
    | [] => groups == 0 && begun
    | c :: rest =>
      let inside := c.isDigit && go groups true rest
      let next := match groups with
        | 0 => false
        | groups + 1 => begun && go groups false rest
      inside || next

/-- A number from 0 to 255 without leading zeros. -/
def isOctet (s : List Char) : Bool :=
  !s.isEmpty && s.length ≤ 3 && s.all Char.isDigit && (s == ['0'] || s.head? != some '0') &&
    s.foldl (fun n c => n * 10 + (c.toNat - '0'.toNat)) 0 ≤ 255

/-- A host of the fourth version: four octets. -/
def isV4 (host : List Char) : Bool :=
  let octets := Text.splitOn '.' host
  octets.length == 4 && octets.all isOctet

/-- Up to four hexadecimal digits. -/
def isHextet (s : List Char) : Bool :=
  !s.isEmpty && s.length ≤ 4 && s.all isHexDigit

/-- The parts of a host of the sixth version, octets at the end counting as two. -/
def hextets? (host : List Char) : Option (List (List Char)) :=
  let parts := Text.splitOn ':' host
  if parts.length < 3 then none
  else
    let last := parts.getLast?.getD []
    if last.contains '.' then
      if isV4 last then some (parts.dropLast ++ [['0'], ['0']]) else none
    else some parts

/-- A host of the sixth version: eight parts, or fewer with one gap. -/
def isV6 (host : List Char) : Bool :=
  let scope := host.dropWhile (· != '%')
  let sound := scope.isEmpty || (scope.length != 1 && !(scope.drop 1).contains '%')
  match hextets? (host.takeWhile (· != '%')) with
  | none => false
  | some parts =>
    let inner := (parts.drop 1).dropLast
    let filled := parts.filter (!·.isEmpty)
    let openStart := parts.head? == some []
    let openEnd := parts.getLast? == some []
    let shape := match inner.countP (·.isEmpty) with
      | 0 => parts.length == 8 && filled.length == 8
      | 1 =>
        (!openStart || inner.head? == some []) && (!openEnd || inner.getLast? == some []) &&
          filled.length ≤ 7
      | _ => false
    sound && parts.length ≤ 9 && filled.all isHextet && shape

/-- Letters and numbers that stand for others in names: wide, small, raised, lowered, circled,
squared and mathematical forms, ligatures, numerals and compatibility ideographs. -/
def isCompatible (c : Char) : Bool :=
  let within (low high : Nat) : Bool := low ≤ c.toNat && c.toNat ≤ high
  [0xaa, 0xb2, 0xb3, 0xb5, 0xb9, 0xba, 0xbc, 0xbd, 0xbe, 0x17f].contains c.toNat ||
    within 0x2b0 0x2b8 || within 0x1d2c 0x1d6a || within 0x2070 0x209f || within 0x2100 0x218b ||
    within 0x2460 0x24ff || within 0x3200 0x33ff || within 0xf900 0xfaff || within 0xfb00 0xfdff ||
    within 0xfe70 0xffef || within 0x1d400 0x1d7ff || within 0x1f100 0x1f2ff

/-- Marks that join the letter before them. -/
def isMark (c : Char) : Bool :=
  let within (low high : Nat) : Bool := low ≤ c.toNat && c.toNat ≤ high
  within 0x300 0x36f || within 0x591 0x5bd || within 0x64b 0x655 || within 0x93a 0x94d ||
    within 0xe31 0xe3a || within 0xe47 0xe4e || within 0x3099 0x309a

/-- A character of a label. -/
def isLabelChar (c : Char) : Bool :=
  if c.val < 0x80 then c.isLower || c.isDigit || c == '-'
  else
    (Text.isLetterOrNumber c && Text.lower c.toString == c.toString && !isCompatible c) || isMark c

/-- A label in ASCII; none when it may not stand in a name. -/
def asciiLabel? (label : List Char) : Option (List Char) :=
  let sound := !label.isEmpty && label.all isLabelChar && label.head? != some '-' &&
    label.getLast? != some '-' && (label.drop 2).take 2 != ['-', '-'] && !label.head?.any isMark
  if !sound then none
  else
    let ascii := if label.all (·.val < 0x80) then label
      else "xn--".toList ++ Text.Punycode.encode label
    if ascii.length ≤ 63 then some ascii else none

/-- The dots between labels. -/
def isLabelDot (c : Char) : Bool :=
  c == '.' || c == '\u3002' || c == '\uff0e' || c == '\uff61'

/-- A name in ASCII; a last label that is empty only leaves a dot. -/
def asciiName? (name : List Char) : Option (List Char) :=
  let labels := Text.splitBy isLabelDot name
  let rooted := 1 < labels.length && labels.getLast? == some []
  let inner := if rooted then labels.dropLast else labels
  (inner.mapM asciiLabel?).bind fun ascii =>
    let joined := Text.joinWith ['.'] ascii ++ (if rooted then ['.'] else [])
    if joined.length ≤ (if rooted then 254 else 253) then some joined else none

end CodeAtlas.Address
