/-!
UTF-8. Writing is total; strict reading gives the place and the reason of the first fault; repairing
reading puts U+FFFD for every maximal piece that starts a well-formed sequence but does not end one,
and for every byte that starts none.
-/

namespace CodeAtlas.Text

/-- The UTF-8 bytes of a text. -/
def utf8 (text : List Char) : List UInt8 :=
  text.flatMap String.utf8EncodeChar

/-- The number of UTF-8 bytes of a text. -/
def utf8Length (text : List Char) : Nat :=
  text.foldl (fun n c => n + c.utf8Size) 0

/-- A sequence that has begun: the bytes seen, how many continuation bytes are owed, the range of
the next one, and the bits gathered. -/
structure Utf8Pending where
  seen : Nat
  owed : Nat
  low : UInt8
  high : UInt8
  bits : Nat

/-- What a byte between characters does. -/
inductive Utf8Start where
  | char (c : Char)
  | begin (pending : Utf8Pending)
  | invalid

/-- The first byte of a sequence fixes its length and the range of its second byte; the ranges leave
out overlong forms, surrogates and code points beyond U+10FFFF. -/
def utf8Start (b : UInt8) : Utf8Start :=
  let n := b.toNat
  if b < 0x80 then .char (Char.ofNat n)
  else if b < 0xc2 then .invalid
  else if b < 0xe0 then .begin ⟨1, 1, 0x80, 0xbf, n - 0xc0⟩
  else if b == 0xe0 then .begin ⟨1, 2, 0xa0, 0xbf, 0⟩
  else if b == 0xed then .begin ⟨1, 2, 0x80, 0x9f, n - 0xe0⟩
  else if b < 0xf0 then .begin ⟨1, 2, 0x80, 0xbf, n - 0xe0⟩
  else if b == 0xf0 then .begin ⟨1, 3, 0x90, 0xbf, 0⟩
  else if b < 0xf4 then .begin ⟨1, 3, 0x80, 0xbf, n - 0xf0⟩
  else if b == 0xf4 then .begin ⟨1, 3, 0x80, 0x8f, n - 0xf0⟩
  else .invalid

/-- A continuation byte in range: the character it completes, or the sequence it goes on with. -/
def Utf8Pending.next (p : Utf8Pending) (b : UInt8) : Char ⊕ Utf8Pending :=
  let bits := p.bits * 64 + (b.toNat - 0x80)
  if p.owed ≤ 1 then .inl (Char.ofNat bits)
  else .inr ⟨p.seen + 1, p.owed - 1, 0x80, 0xbf, bits⟩

/-- The replacement character. -/
def replacement : Char := '\ufffd'

/-- Reads bytes as UTF-8, repairing what is ill formed. -/
def ofUtf8Repairing (bytes : List UInt8) : List Char :=
  go [] none bytes
where
  /-- A byte that starts anew. -/
  start (out : List Char) (b : UInt8) : List Char × Option Utf8Pending :=
    match utf8Start b with
    | .char c => (c :: out, none)
    | .begin pending => (out, some pending)
    | .invalid => (replacement :: out, none)
  /-- `out` is the text so far, nearest character first. -/
  go (out : List Char) (pending : Option Utf8Pending) : List UInt8 → List Char
    | [] => (if pending.isSome then replacement :: out else out).reverse
    | b :: rest =>
      match pending with
      | none => let (out, pending) := start out b; go out pending rest
      | some p =>
        if p.low ≤ b && b ≤ p.high then
          match p.next b with
          | .inl c => go (c :: out) none rest
          | .inr p => go out (some p) rest
        else let (out, pending) := start (replacement :: out) b; go out pending rest

/-- Why bytes are not UTF-8. -/
inductive Utf8Fault where
  | startByte (offset : Nat) (byte : UInt8)
  | continuationByte (offset count : Nat) (byte : UInt8)
  | truncated (count : Nat) (byte : UInt8)

/-- Reads bytes as UTF-8, stopping at the first fault. -/
def ofUtf8 (bytes : List UInt8) : Except Utf8Fault (List Char) :=
  go [] 0 none bytes
where
  /-- A byte that starts anew. -/
  start (out : List Char) (offset : Nat) (b : UInt8) :
      Except Utf8Fault (List Char × Option (Utf8Pending × UInt8)) :=
    match utf8Start b with
    | .char c => .ok (c :: out, none)
    | .begin pending => .ok (out, some (pending, b))
    | .invalid => .error (.startByte offset b)
  /-- `out` is the text so far, nearest character first; an open sequence keeps its first byte. -/
  go (out : List Char) (offset : Nat) (pending : Option (Utf8Pending × UInt8)) :
      List UInt8 → Except Utf8Fault (List Char)
    | [] =>
      match pending with
      | none => .ok out.reverse
      | some (p, first) => .error (.truncated p.seen first)
    | b :: rest =>
      match pending with
      | none =>
        match start out offset b with
        | .ok (out, pending) => go out (offset + 1) pending rest
        | .error fault => .error fault
      | some (p, first) =>
        if p.low ≤ b && b ≤ p.high then
          match p.next b with
          | .inl c => go (c :: out) (offset + 1) none rest
          | .inr p => go out (offset + 1) (some (p, first)) rest
        else .error (.continuationByte (offset - p.seen) p.seen first)

/-- A byte as two hexadecimal digits. -/
def byteHex (b : UInt8) : String :=
  let digits := Nat.toDigits 16 b.toNat
  String.ofList (List.replicate (2 - digits.length) '0' ++ digits)

/-- A fault in words: the byte or bytes that could not be read, where, and why. -/
def Utf8Fault.message : Utf8Fault → String
  | .startByte offset byte => place offset 1 byte ++ "invalid start byte"
  | .continuationByte offset count byte => place offset count byte ++ "invalid continuation byte"
  | .truncated count byte => place 0 count byte ++ "unexpected end of data"
where
  /-- The bytes and their place. -/
  place (offset count : Nat) (byte : UInt8) : String :=
    "'utf-8' codec can't decode " ++
      (if count ≤ 1 then s!"byte 0x" ++ byteHex byte ++ s!" in position {offset}: "
       else s!"bytes in position {offset}-{offset + count - 1}: ")

end CodeAtlas.Text

/-! ### Other encodings

Texts whose encoding is not said. The zero bytes among the first four tell the widths of Unicode
encodings apart, as the first two characters of what is encoded are ASCII; without any the encoding
is UTF-8, with or without a mark at the start.
-/

namespace CodeAtlas.Text

/-- The encodings of Unicode. -/
inductive Encoding where
  | utf8
  | utf16 (bigEndian : Bool)
  | utf32 (bigEndian : Bool)

/-- The encoding that the zero bytes at the start suggest. -/
def Encoding.ofStart : List UInt8 → Encoding
  | [a, b] => if a == 0 then utf16 true else if b == 0 then utf16 false else utf8
  | a :: b :: c :: d :: _ =>
    if a == 0 then if b == 0 then utf32 true else utf16 true
    else if b == 0 then if c == 0 && d == 0 then utf32 false else utf16 false
    else utf8
  | _ => utf8

/-- The units of two bytes. -/
def units16? (bigEndian : Bool) : List UInt8 → Option (List Nat)
  | [] => some []
  | a :: b :: rest =>
    let n := if bigEndian then a.toNat * 256 + b.toNat else b.toNat * 256 + a.toNat
    (units16? bigEndian rest).map (n :: ·)
  | _ => none

/-- The characters of units; two that form a pair are one, a lone one stands for U+FFFD. -/
def ofUnits16 (units : List Nat) : List Char :=
  go none units
where
  /-- The lone first unit of a pair. -/
  lone (high : Option Nat) : List Char :=
    if high.isSome then [replacement] else []
  /-- `high` is the unit before, when it is the first of a pair. -/
  go (high : Option Nat) : List Nat → List Char
    | [] => lone high
    | n :: rest =>
      if 0xd800 ≤ n && n < 0xdc00 then lone high ++ go (some n) rest
      else if 0xdc00 ≤ n && n < 0xe000 then
        (match high with
          | some h => Char.ofNat (0x10000 + (h - 0xd800) * 0x400 + (n - 0xdc00))
          | none => replacement) :: go none rest
      else lone high ++ Char.ofNat n :: go none rest

/-- The characters of groups of four bytes, none of them beyond U+10FFFF. -/
def chars32? (bigEndian : Bool) : List UInt8 → Option (List Char)
  | [] => some []
  | a :: b :: c :: d :: rest => do
    let bytes := if bigEndian then [a, b, c, d] else [d, c, b, a]
    let n := bytes.foldl (fun n byte => n * 256 + byte.toNat) 0
    if n ≤ 0x10ffff then
      let c := if 0xd800 ≤ n && n < 0xe000 then replacement else Char.ofNat n
      return c :: (← chars32? bigEndian rest)
    else none
  | _ => none

/-- Reads bytes in the encoding that their start suggests; a mark at the start is left out. -/
def ofBytes? (bytes : List UInt8) : Option (List Char) :=
  match Encoding.ofStart bytes with
  | .utf16 bigEndian => (units16? bigEndian bytes).map ofUnits16
  | .utf32 bigEndian => chars32? bigEndian bytes
  | .utf8 =>
    match ofUtf8 bytes with
    | .ok ('\ufeff' :: rest) => some rest
    | .ok text => some text
    | .error _ => none

end CodeAtlas.Text
