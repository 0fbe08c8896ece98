/-!
Base64: three bytes as four characters, the last group filled up with equals signs. Reading passes
over all other characters.
-/

namespace CodeAtlas.Text.Base64

/-- The characters, each for its place. -/
def alphabet : List Char :=
  "ABCDEFGHIJKLMNOPQRSTUVWXYZabcdefghijklmnopqrstuvwxyz0123456789+/".toList

/-- The character of six bits. -/
def char (n : Nat) : Char :=
  alphabet[n % 64]?.getD '='

/-- Bytes in Base64. -/
def encode : List UInt8 → List Char
  | a :: b :: c :: rest =>
    let n := a.toNat * 65536 + b.toNat * 256 + c.toNat
    char (n / 262144) :: char (n / 4096) :: char (n / 64) :: char n :: encode rest
  | [a, b] =>
    let n := a.toNat * 65536 + b.toNat * 256
    [char (n / 262144), char (n / 4096), char (n / 64), '=']
  | [a] =>
    let n := a.toNat * 65536
    [char (n / 262144), char (n / 4096), '=', '=']
  | [] => []

/-- The bytes that a text writes; none when its last group is not filled up. What follows a filled
group is not read. -/
def decode? (s : List Char) : Option (List UInt8) :=
  go 0 0 0 s
where
  /-- `count` characters of the group have been read, `held` are those of their bits that belong to
  the next byte, and `filled` equals signs stand just before. -/
  go (count held filled : Nat) : List Char → Option (List UInt8)
    | [] => if count == 0 then some [] else none
    | c :: rest =>
      if c == '=' then
        if count < 2 then go count held filled rest
        else if 4 ≤ count + filled + 1 then some []
        else go count held (filled + 1) rest
      else
        match alphabet.idxOf? c, count with
        | none, _ => go count held filled rest
        | some n, 0 => go 1 n 0 rest
        | some n, 1 => (go 2 (n % 16) 0 rest).map (UInt8.ofNat (held * 4 + n / 16) :: ·)
        | some n, 2 => (go 3 (n % 4) 0 rest).map (UInt8.ofNat (held * 16 + n / 4) :: ·)
        | some n, _ => (go 0 0 0 rest).map (UInt8.ofNat (held * 64 + n) :: ·)

end CodeAtlas.Text.Base64
