import CodeAtlas.Text.CharClass

/-!
Texts as lists of characters: trimming, cutting into pieces and words, and occurrences of a text in
another. Blanks are those of `isBlank`.
-/

namespace CodeAtlas.Text

/-- Without the blanks at the start. -/
def trimStart (text : List Char) : List Char :=
  text.dropWhile isBlank

/-- Without the blanks at the end. -/
def trimEnd (text : List Char) : List Char :=
  (text.reverse.dropWhile isBlank).reverse

/-- Without the blanks at both ends. -/
def trim (text : List Char) : List Char :=
  trimEnd (trimStart text)

/-- Nothing but blanks. -/
def isBlankText (text : List Char) : Bool :=
  text.all isBlank

/-- Without the leading characters `c`. -/
def dropLeading (c : Char) (text : List Char) : List Char :=
  text.dropWhile (· == c)

/-- Without the trailing characters `c`. -/
def dropTrailing (c : Char) (text : List Char) : List Char :=
  (text.reverse.dropWhile (· == c)).reverse

/-- The pieces between the characters that `isSep` accepts; one more than there are separators. -/
def splitBy (isSep : Char → Bool) (text : List Char) : List (List Char) :=
  go [] text
where
  /-- `piece` is the unfinished piece, nearest character first. -/
  go (piece : List Char) : List Char → List (List Char)
    | [] => [piece.reverse]
    | c :: rest => if isSep c then piece.reverse :: go [] rest else go (c :: piece) rest

/-- The pieces between the separators `sep`. -/
def splitOn (sep : Char) (text : List Char) : List (List Char) :=
  splitBy (· == sep) text

/-- The lines of a text: the pieces between newlines. -/
def lines (text : List Char) : List (List Char) :=
  splitOn '\n' text

/-- The non-empty pieces between blanks. -/
def words (text : List Char) : List (List Char) :=
  (splitBy isBlank text).filter (!·.isEmpty)

/-- The texts one after another with `sep` between each two. -/
def joinWith (sep : List Char) : List (List Char) → List Char
  | [] => []
  | [last] => last
  | first :: second :: rest => first ++ sep ++ joinWith sep (second :: rest)

/-- The text after `start`, when it starts so. -/
def dropStart? (start text : List Char) : Option (List Char) :=
  if start.isPrefixOf text then some (text.drop start.length) else none

/-- The offset of the first occurrence of `part` in `text`. -/
def find? (part : List Char) (text : List Char) : Option Nat :=
  go 0 text
where
  /-- `offset` characters have been passed. -/
  go (offset : Nat) : List Char → Option Nat
    | [] => if part.isEmpty then some offset else none
    | c :: rest => if part.isPrefixOf (c :: rest) then some offset else go (offset + 1) rest

/-- `part` occurs in `text`. -/
def occursIn (part text : List Char) : Bool :=
  (find? part text).isSome

/-- How often the non-empty `part` occurs in `text`, leftmost first and without overlap. -/
def countOccurrences (part text : List Char) : Nat :=
  go 0 0 text
where
  /-- `skip` more characters belong to the last occurrence. -/
  go (count skip : Nat) : List Char → Nat
    | [] => count
    | c :: rest =>
      match skip with
      | skip + 1 => go count skip rest
      | 0 => if part.isPrefixOf (c :: rest) then go (count + 1) (part.length - 1) rest
             else go count 0 rest

/-- Each tab becomes spaces up to the next multiple of `width`; columns start anew at a line end. -/
def expandTabs (width : Nat) (line : List Char) : List Char :=
  go 0 line
where
  /-- `column` characters stand before on this line. -/
  go (column : Nat) : List Char → List Char
    | [] => []
    | c :: rest =>
      if c == '\t' then
        let gap := width - column % width
        List.replicate gap ' ' ++ go (column + gap) rest
      else c :: go (if c == '\n' || c == '\r' then 0 else column + 1) rest

/-- The part of `text` after the last `sep`; all of it when there is none. -/
def afterLast (sep : Char) (text : List Char) : List Char :=
  (text.reverse.takeWhile (· != sep)).reverse

end CodeAtlas.Text

/-! ### Lines by their offsets

Offsets and lines. A line starts at offset 0 and after every newline; the line of an offset, counted
from 1, is the number of line starts at or before it.
-/

namespace CodeAtlas.Text

/-- The offsets at which a line begins, ascending. -/
def lineStarts (text : List Char) : List Nat :=
  0 :: go 1 text
where
  /-- `offset` is the offset just after the next character. -/
  go (offset : Nat) : List Char → List Nat
    | [] => []
    | c :: rest => if c == '\n' then offset :: go (offset + 1) rest else go (offset + 1) rest

/-- The line of an offset, counted from 1; 0 for an offset before the first line. -/
def lineOf (starts : List Nat) (offset : Int) : Nat :=
  starts.countP fun (start : Nat) => decide ((start : Int) ≤ offset)

end CodeAtlas.Text
