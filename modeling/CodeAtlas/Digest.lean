import CodeAtlas.Text.Utf8

/-!
SHA-256 digests of texts. The digest of a text is that of its UTF-8 bytes, written as 64 lower-case
hexadecimal digits; the key of several parts is the digest of the parts run together.
-/

namespace CodeAtlas.Digest

/-- The round constants: the first 32 bits of the fractional parts of the cube roots of the first 64
primes. -/
def roundConstants : List UInt32 := [
  0x428a2f98, 0x71374491, 0xb5c0fbcf, 0xe9b5dba5, 0x3956c25b, 0x59f111f1, 0x923f82a4, 0xab1c5ed5,
  0xd807aa98, 0x12835b01, 0x243185be, 0x550c7dc3, 0x72be5d74, 0x80deb1fe, 0x9bdc06a7, 0xc19bf174,
  0xe49b69c1, 0xefbe4786, 0x0fc19dc6, 0x240ca1cc, 0x2de92c6f, 0x4a7484aa, 0x5cb0a9dc, 0x76f988da,
  0x983e5152, 0xa831c66d, 0xb00327c8, 0xbf597fc7, 0xc6e00bf3, 0xd5a79147, 0x06ca6351, 0x14292967,
  0x27b70a85, 0x2e1b2138, 0x4d2c6dfc, 0x53380d13, 0x650a7354, 0x766a0abb, 0x81c2c92e, 0x92722c85,
  0xa2bfe8a1, 0xa81a664b, 0xc24b8b70, 0xc76c51a3, 0xd192e819, 0xd6990624, 0xf40e3585, 0x106aa070,
  0x19a4c116, 0x1e376c08, 0x2748774c, 0x34b0bcb5, 0x391c0cb3, 0x4ed8aa4a, 0x5b9cca4f, 0x682e6ff3,
  0x748f82ee, 0x78a5636f, 0x84c87814, 0x8cc70208, 0x90befffa, 0xa4506ceb, 0xbef9a3f7, 0xc67178f2]

/-- The chaining value between two blocks. -/
structure Chain where
  a : UInt32
  b : UInt32
  c : UInt32
  d : UInt32
  e : UInt32
  f : UInt32
  g : UInt32
  h : UInt32

/-- The first 32 bits of the fractional parts of the square roots of the first eight primes. -/
def Chain.initial : Chain :=
  ⟨0x6a09e667, 0xbb67ae85, 0x3c6ef372, 0xa54ff53a, 0x510e527f, 0x9b05688c, 0x1f83d9ab, 0x5be0cd19⟩

/-- Rotation to the right. -/
def rotateRight (x : UInt32) (n : UInt32) : UInt32 :=
  (x >>> n) ||| (x <<< (32 - n))

/-- One round with the sum of its schedule word and constant. -/
def Chain.round (s : Chain) (input : UInt32) : Chain :=
  let big1 := rotateRight s.e 6 ^^^ rotateRight s.e 11 ^^^ rotateRight s.e 25
  let choice := (s.e &&& s.f) ^^^ (~~~s.e &&& s.g)
  let t1 := s.h + big1 + choice + input
  let big0 := rotateRight s.a 2 ^^^ rotateRight s.a 13 ^^^ rotateRight s.a 22
  let majority := (s.a &&& s.b) ^^^ (s.a &&& s.c) ^^^ (s.b &&& s.c)
  ⟨t1 + big0 + majority, s.a, s.b, s.c, s.d + t1, s.e, s.f, s.g⟩

/-- The chaining value after a block: the sum of the one before and the one after the rounds. -/
def Chain.add (s t : Chain) : Chain :=
  ⟨s.a + t.a, s.b + t.b, s.c + t.c, s.d + t.d, s.e + t.e, s.f + t.f, s.g + t.g, s.h + t.h⟩

/-- The words of a chaining value. -/
def Chain.words (s : Chain) : List UInt32 :=
  [s.a, s.b, s.c, s.d, s.e, s.f, s.g, s.h]

/-- A big-endian word. -/
def wordOf (bytes : List UInt8) : UInt32 :=
  bytes.foldl (fun word b => (word <<< 8) ||| b.toUInt32) 0

/-- The big-endian bytes of a word. -/
def bytesOf (word : UInt32) : List UInt8 :=
  [(word >>> 24).toUInt8, (word >>> 16).toUInt8, (word >>> 8).toUInt8, word.toUInt8]

/-- The next word of a message schedule that is held newest first. -/
def nextWord (schedule : List UInt32) : UInt32 :=
  let word (i : Nat) := schedule.getD i 0
  let small0 := rotateRight (word 14) 7 ^^^ rotateRight (word 14) 18 ^^^ (word 14 >>> 3)
  let small1 := rotateRight (word 1) 17 ^^^ rotateRight (word 1) 19 ^^^ (word 1 >>> 10)
  word 15 + small0 + word 6 + small1

/-- The sixteen words of a block and the `extra` words that follow them, oldest first. -/
def schedule (block : List UInt32) (extra : Nat) : List UInt32 :=
  ((List.range extra).foldl (fun words _ => nextWord words :: words) block.reverse).reverse

/-- Folds one block of 64 bytes into the chaining value. -/
def Chain.absorb (s : Chain) (block : List UInt32) : Chain :=
  s.add (((schedule block 48).zip roundConstants).foldl (fun t (w, k) => t.round (w + k)) s)

/-- The message with a one bit, zeros up to 56 bytes modulo 64, and its length in bits. -/
def padded (message : List UInt8) : List UInt8 :=
  let size := message.length
  let zeros := (55 + 64 - size % 64) % 64
  let bits := size * 8
  message ++ 0x80 :: List.replicate zeros 0 ++
    bytesOf (UInt32.ofNat (bits / 0x100000000)) ++ bytesOf (UInt32.ofNat bits)

/-- The 32 bytes of the digest. -/
def sha256 (message : List UInt8) : List UInt8 :=
  let (_, _, chain) := (padded message).foldl step ([], [], Chain.initial)
  chain.words.flatMap bytesOf
where
  /-- Gathers four bytes to a word and sixteen words to a block, both newest first. -/
  step : List UInt8 × List UInt32 × Chain → UInt8 → List UInt8 × List UInt32 × Chain
    | (bytes, words, chain), b =>
      if bytes.length < 3 then (b :: bytes, words, chain)
      else
        let words := wordOf (b :: bytes).reverse :: words
        if words.length < 16 then ([], words, chain)
        else ([], [], chain.absorb words.reverse)

/-- Bytes in hexadecimal. -/
def hex (bytes : List UInt8) : String :=
  String.join (bytes.map Text.byteHex)

/-- The digest of a text. -/
def ofText (text : String) : String :=
  hex (sha256 (Text.utf8 text.toList))

/-- The digest of several texts run together. -/
def ofParts (parts : List String) : String :=
  ofText (String.join parts)

end CodeAtlas.Digest
