import CodeAtlas.Text.Basic

/-!
Globs: `*` stands for any text, slashes included, `?` for any character, and a bracketed set for one
of its characters or, after `!`, for one that is not in it. A bracket that is not closed stands for
itself. In a set two characters with a hyphen between them are a range; a range that runs backwards
is left out.
-/

namespace CodeAtlas

/-- A piece of a glob. -/
inductive GlobPiece where
  | anyText
  | anyChar
  | char (c : Char)
  /-- One character inside, or with `negated` outside, all of the ranges. -/
  | set (negated : Bool) (ranges : List (Char × Char))

/-- A piece stands for a character. -/
def GlobPiece.accepts : GlobPiece → Char → Bool
  | .anyText, _ | .anyChar, _ => true
  | .char d, c => d == c
  | .set negated ranges, c => (ranges.any fun (low, high) => low ≤ c && c ≤ high) != negated

/-- A glob. -/
structure Glob where
  pieces : List GlobPiece

namespace Glob

/-- Cuts the inside of a bracket at the hyphens that make ranges. The next `skip` characters belong
to `piece` whatever they are: one at the start, two after each cut. -/
def cutAtRanges (skip : Nat) (piece : List Char) : List Char → List (List Char)
  | [] => [piece.reverse]
  | c :: rest =>
    match skip with
    | skip + 1 => cutAtRanges skip (c :: piece) rest
    | 0 =>
      if c == '-' then piece.reverse :: cutAtRanges 2 [] rest
      else cutAtRanges 0 (c :: piece) rest

/-- A hyphen that ends the inside makes no range. -/
def closeLast (pieces : List (List Char)) : List (List Char) :=
  match pieces.reverse with
  | [] :: before :: rest => ((before ++ ['-']) :: rest).reverse
  | _ => pieces

/-- Puts a piece before others; a range between it and the next one that runs backwards is left out,
and the two become one piece. -/
def joinRange (piece : List Char) (others : List (List Char)) : List (List Char) :=
  match others with
  | [] => [piece]
  | next :: rest =>
    match piece.getLast?, next.head? with
    | some low, some high =>
      if high < low then (piece.dropLast ++ next.drop 1) :: rest else piece :: others
    | _, _ => piece :: others

/-- Pieces in one row, with `none` for each hyphen between the ends of a range. -/
def inRow : List (List Char) → List (Option Char)
  | [] => []
  | [piece] => piece.map some
  | piece :: rest => piece.map some ++ none :: inRow rest

/-- The ranges in a row; a character with no hyphen after it is a range of its own. -/
def rangesOf : List (Option Char) → List (Char × Char)
  | [] => []
  | some low :: none :: some high :: rest => (low, high) :: rangesOf rest
  | mark :: rest => (mark.getD '-', mark.getD '-') :: rangesOf rest

/-- The set that the inside of a bracket stands for. A `!` that comes to the front only when a range
is left out negates too. -/
def setOf (inside : List Char) : GlobPiece :=
  let row (s : List Char) := inRow ((closeLast (cutAtRanges 1 [] s)).foldr joinRange [])
  match inside with
  | '!' :: rest => .set true (rangesOf (row rest))
  | _ =>
    match row inside with
    | some '!' :: rest => .set true (rangesOf rest)
    | marks => .set false (rangesOf marks)

/-- The inside of a bracket and what follows it, when it is closed. A `]` right at the start, or
right after `!`, belongs to the inside. -/
def bracket? (s : List Char) : Option (List Char × List Char) :=
  let (lead, rest) := match s with
    | '!' :: rest => (['!'], rest)
    | _ => ([], s)
  let (lead, rest) := match rest with
    | ']' :: more => (lead ++ [']'], more)
    | _ => (lead, rest)
  let inside := rest.takeWhile (· != ']')
  match rest.drop inside.length with
  | _ :: after => some (lead ++ inside, after)
  | [] => none

/-- The pieces of a glob; `fuel` bounds their number. -/
def piecesOf (fuel : Nat) (s : List Char) : List GlobPiece :=
  match fuel, s with
  | 0, _ => []
  | _, [] => []
  | fuel + 1, c :: rest =>
    if c == '*' then .anyText :: piecesOf fuel rest
    else if c == '?' then .anyChar :: piecesOf fuel rest
    else if c == '[' then
      match bracket? rest with
      | some (inside, after) => setOf inside :: piecesOf fuel after
      | none => .char c :: piecesOf fuel rest
    else .char c :: piecesOf fuel rest

/-- Reads a glob; every piece takes up a character at least. -/
def parse (s : List Char) : Glob :=
  ⟨piecesOf s.length s⟩

/-- The text or one of its ends satisfies `p`. -/
def anyEnd (p : List Char → Bool) : List Char → Bool
  | [] => p []
  | c :: rest => p (c :: rest) || anyEnd p rest

/-- Pieces stand for a whole text. -/
def matchesPieces : List GlobPiece → List Char → Bool
  | [], text => text.isEmpty
  | .anyText :: rest, text => anyEnd (matchesPieces rest) text
  | _ :: _, [] => false
  | piece :: rest, c :: text => piece.accepts c && matchesPieces rest text

/-- The glob stands for a whole text. -/
def accepts (g : Glob) (text : List Char) : Bool :=
  matchesPieces g.pieces text

/-- A glob, given as text, stands for a whole text. -/
def matchesText (glob text : List Char) : Bool :=
  (parse glob).accepts text

end Glob

end CodeAtlas
