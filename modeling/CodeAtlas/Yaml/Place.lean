import CodeAtlas.Yaml.Content

/-!
Places in a document. A place knows its column, whether only spaces stand before it on its line, the
handles that the document gives to tags, and the nodes before it that have been given a name.
-/

namespace CodeAtlas.Yaml

/-- Ends a line. -/
def isBreak (c : Char) : Bool :=
  c == '\n' || c == '\u0085' || c == '\u2028' || c == '\u2029'

/-- A blank within or at the end of a line. -/
def isGap (c : Char) : Bool :=
  c == ' ' || c == '\t' || isBreak c

/-- Nothing or a blank comes next. -/
def endsHere (rest : List Char) : Bool :=
  rest.head?.all isGap

/-- A character that a document may hold. -/
def isAllowed (c : Char) : Bool :=
  c == '\t' || c == '\n' || c == '\r' || (' ' ≤ c && c ≤ '~') || c == '\u0085' ||
    ('\u00a0' ≤ c && c.val < 0xfffe) || 0x10000 ≤ c.val

/-- Every line end as a newline. -/
def unifyLineEnds : List Char → List Char
  | '\r' :: '\n' :: rest => '\n' :: unifyLineEnds rest
  | '\r' :: rest => '\n' :: unifyLineEnds rest
  | c :: rest => c :: unifyLineEnds rest
  | [] => []

/-- A line end as a scalar has it. -/
def unifyBreak (c : Char) : Char :=
  if c == '\u0085' then '\n' else c

/-- A place in a document. -/
structure Place where
  rest : List Char
  column : Nat
  line : Nat
  /-- How many characters stand before it. -/
  index : Nat
  /-- Only spaces stand before it on its line. -/
  fresh : Bool
  /-- The nodes with a name so far. -/
  named : List (String × Content)
  /-- The handles of the document's own, and the starts of names that they stand for. -/
  handles : List (String × String)

namespace Place

/-- The start of a document. -/
def start (text : List Char) : Place :=
  ⟨text, 0, 0, 0, true, [], []⟩

/-- After one more character. A mark of the byte order takes no column. -/
def next (p : Place) : Place :=
  match p.rest with
  | [] => p
  | c :: rest =>
    let index := p.index + 1
    if isBreak c then { p with rest, index, column := 0, line := p.line + 1, fresh := true }
    else
      let width := if c == '\ufeff' then 0 else 1
      { p with rest, index, column := p.column + width, fresh := p.fresh && c == ' ' }

/-- After `n` more characters. -/
def skip : Nat → Place → Place
  | 0, p => p
  | n + 1, p => skip n p.next

/-- After the characters that satisfy `f`. -/
def skipWhile (f : Char → Bool) (p : Place) : Place :=
  p.skip (p.rest.takeWhile f).length

/-- After the spaces that stand here. -/
def afterSpaces (p : Place) : Place :=
  p.skipWhile (· == ' ')

/-- After spaces, line ends and comments. -/
def toToken (p : Place) : Place :=
  go false p.rest p
where
  /-- Inside a comment or not. -/
  go (inComment : Bool) : List Char → Place → Place
    | [], p => p
    | c :: rest, p =>
      if isBreak c then go false rest p.next
      else if inComment || c == '#' then go true rest p.next
      else if c == ' ' then go false rest p.next
      else p

/-- The next character is `c`. -/
def has (c : Char) (p : Place) : Bool :=
  p.rest.head? == some c

/-- The next character is one of `cs`. -/
def hasOne (cs : List Char) (p : Place) : Bool :=
  p.rest.head?.any cs.contains

/-- A mark of one character comes next, and nothing or a blank after it. -/
def atSign (mark : Char) (p : Place) : Bool :=
  match p.rest with
  | c :: rest => c == mark && endsHere rest
  | [] => false

/-- A mark of three characters stands alone at the start of a line. -/
def isMark (mark : String) (p : Place) : Bool :=
  p.column == 0 && mark.toList.isPrefixOf p.rest && endsHere (p.rest.drop 3)

/-- A document starts or ends here. -/
def atBoundary (p : Place) : Bool :=
  p.isMark "---" || p.isMark "..."

/-- Nothing more of the document comes. -/
def atEnd (p : Place) : Bool :=
  p.rest.isEmpty || p.atBoundary

end Place

end CodeAtlas.Yaml
