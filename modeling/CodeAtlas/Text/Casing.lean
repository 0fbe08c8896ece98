import CodeAtlas.Text.CharClass

/-!
Lower and title case of a text. A capital sigma becomes a final sigma when it ends a word: a cased
character stands before it and none after it, not counting the case-ignorable characters between.
-/

namespace CodeAtlas.Text

/-- Where one of the `runs` sends `c`; `c` itself when none holds it. -/
def shiftByRuns (runs : Array Table.CaseRun) (c : Char) : Char :=
  let v := c.toNat
  let covers (run : Table.CaseRun) : Bool :=
    run.first ≤ v && v ≤ run.last && (v - run.first) % run.stride == 0
  match runs.find? covers with
  | some run => Char.ofNat (v + run.shift).toNat
  | none => c

/-- The lower case of `c` alone, when that is one character. -/
def lowerChar (c : Char) : Char :=
  if c.val < 0x80 then c.toLower else shiftByRuns Table.lowerRuns c

/-- The first character that is not case-ignorable is cased. -/
def nextIsCased (text : List Char) : Bool :=
  ((text.dropWhile isCaseIgnorable).head?.map isCased).getD false

/-- The lower case of `c` that follows `before` (nearest first) and is followed by `after`. -/
def lowerBetween (before : List Char) (c : Char) (after : List Char) : List Char :=
  if c == '\u03a3' then
    [if nextIsCased before && !nextIsCased after then '\u03c2' else '\u03c3']
  else if c == '\u0130' then ['i', '\u0307']
  else [lowerChar c]

/-- The title case of one character. -/
def titleChar (c : Char) : List Char :=
  if c.val < 0x80 then [c.toUpper]
  else match Table.titleExpansions.lookup c with
    | some expansion => expansion.toList
    | none => [shiftByRuns Table.titleRuns c]

/-- The whole text in lower case. -/
def toLower (text : List Char) : List Char :=
  go [] [] text
where
  /-- `done` is the output and `before` the input already passed, both nearest first. -/
  go (done before : List Char) : List Char → List Char
    | [] => done.reverse
    | c :: rest => go ((lowerBetween before c rest).reverse ++ done) (c :: before) rest

/-- Every character that follows a cased one is lowered, every other one takes its title case. -/
def toTitle (text : List Char) : List Char :=
  go [] text
where
  /-- `before` is the input already passed, nearest first. -/
  go (before : List Char) : List Char → List Char
    | [] => []
    | c :: rest =>
      let afterCased := (before.head?.map isCased).getD false
      (if afterCased then lowerBetween before c rest else titleChar c) ++ go (c :: before) rest

/-- The lower case of a string. -/
def lower (s : String) : String :=
  String.ofList (toLower s.toList)

end CodeAtlas.Text
