import CodeAtlas.Digest
import CodeAtlas.Embedding.Basic
import CodeAtlas.Slice
import CodeAtlas.Text.Casing

/-!
The local feature vector of a text, and the form in which texts are embedded. The same text always
has the same vector: sizes, hints at three languages, letter frequencies, bracket and quote
densities, and the bytes of its digest, scaled to length one.
-/

namespace CodeAtlas.Feature

open Text

/-- Every run of blanks becomes one space. -/
def collapse (text : List Char) : List Char :=
  go false text
where
  /-- `inRun` says that the character before was a blank. -/
  go (inRun : Bool) : List Char → List Char
    | [] => []
    | c :: rest =>
      if isBlank c then if inRun then go true rest else ' ' :: go true rest
      else c :: go false rest

/-- The form in which a text is embedded: blanks collapsed, cut to `maxChars`, trimmed. -/
def normalize (maxChars : Int) (text : String) : String :=
  let chars := collapse text.toList
  let cut := if maxChars < chars.length then Slice.upTo maxChars chars else chars
  String.ofList (trim cut)

/-- The bound when nothing is said. -/
def defaultMaxChars : Int := 8000

/-- A character of a word: a letter, an apostrophe or a hyphen. -/
def isWordMark (c : Char) : Bool :=
  c.isAlpha || c == '\x27' || c == '-'

/-- The number of words. -/
def wordCount (text : List Char) : Nat :=
  ((splitBy (fun c => !isWordMark c) text).filter (!·.isEmpty)).length

/-- How often any of the hints occurs. -/
def hintCount (hints : List String) (lowered : List Char) : Nat :=
  hints.foldr (fun hint n => countOccurrences hint.toList lowered + n) 0

/-- Hints at the three languages. -/
def hintSets : List (List String) := [
  ["function", "const", "let", "var", "=>", "console.log"],
  ["def ", "import ", "class ", "if __name__", "print("],
  ["<?php", "function ", "class ", "$", "->"]]

/-- `part / whole`. -/
def share (part whole : Nat) : Float :=
  part.toFloat / whole.toFloat

/-- At most one. -/
def saturated (x : Float) : Float :=
  if 1.0 < x then 1.0 else x

/-- A hundred numbers between -0.5 and 0.5 from the digest of a text: each pair of neighbouring
hexadecimal digits is a number below 256. -/
def digestShares (text : List Char) : List Float :=
  let digits := (Digest.ofText (String.ofList text)).toList.map fun c =>
    if c.isDigit then c.toNat - '0'.toNat else c.toNat - 'a'.toNat + 10
  let pairs := digits.zip (digits.drop 1 ++ [0])
  let shares := pairs.mapIdx fun i (high, low) =>
    share (if i + 1 == digits.length then high else high * 16 + low) 255 - 0.5
  (shares ++ shares).take 100

/-- The features before scaling. -/
def features (text : List Char) (dimensions : Nat) : List Float :=
  let lowered := toLower text
  let whole := max text.length 1
  let zeros (n : Nat) := List.replicate n (0.0 : Float)
  [saturated (share text.length 1000), saturated (share (wordCount text) 100),
    saturated (share (text.count '\n' + 1) 50)] ++ zeros 7 ++
  hintSets.map (fun hints => share (hintCount hints lowered) 10) ++ zeros 7 ++
  "aeioutnsrl".toList.map (fun c => share (lowered.count c) whole) ++ zeros 20 ++
  ['\x7b', '(', '[', '\x22', '\x27'].map (fun c => share (text.count c) whole * 100) ++ zeros 45 ++
  digestShares text ++ zeros (dimensions - 200)

/-- The length of a vector. -/
def norm (v : List Float) : Float :=
  (v.foldl (fun sum x => sum + x * x) 0).sqrt

/-- The feature vector of a text, of length one. -/
def vector (text : String) (dimensions : Nat) : List Float :=
  let v := features text.toList dimensions
  let n := norm v
  if 0 < n then v.map (· / n) else v

/-- The embedding that stands in for a provider's. -/
def embedding (text : String) (dimensions : Nat) : Embedding :=
  ⟨.fallback, vector text dimensions, Embedding.fallbackModel⟩

/-- The least number of dimensions that the layout fits in. -/
def leastDimensions : Nat := 200

/-- The embedding, when there are dimensions enough for the layout and their number is whole. -/
def embedding? (text : String) (dimensions : Number.Scalar) : Except Failure Embedding :=
  if dimensions < .whole leastDimensions then
    .error (.plain (.unforeseen "ValueError")
      s!"fallback embedding needs at least {leastDimensions} dimensions, got {dimensions.text}")
  else match dimensions with
    | .whole n => .ok (embedding text n.toNat)
    | .real _ => .error (.plain (.unforeseen "TypeError")
      "'float' object cannot be interpreted as an integer")

/-- Dimensions when nothing is said. -/
def defaultDimensions : Int := 384

end CodeAtlas.Feature
