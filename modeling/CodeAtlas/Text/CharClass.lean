import CodeAtlas.Text.Table.Word
import CodeAtlas.Text.Table.Printable
import CodeAtlas.Text.Table.Case

/-!
Character classes over all of Unicode. Below U+0080 each class is said directly; from there on it is
read off a table of the places where membership changes: a code point is a member exactly when an
odd number of those places lie at or before it.
-/

namespace CodeAtlas.Text

/-- How many of the ascending `edges` lie at or before `c`. -/
def edgesUpTo (edges : Array UInt32) (c : UInt32) : Nat :=
  go 0 edges.size (Nat.le_refl _)
where
  /-- The answer lies between `low` and `high`. -/
  go (low high : Nat) (bound : high ≤ edges.size) : Nat :=
    if h : low < high then
      let middle := (low + high) / 2
      have inside : middle < edges.size := by omega
      if edges[middle] ≤ c then go (middle + 1) high bound
      else go low middle (by omega)
    else low
  termination_by high - low

/-- Membership in the set whose membership changes at `edges`. -/
def memberByEdges (edges : Array UInt32) (c : Char) : Bool :=
  edgesUpTo edges c.val % 2 == 1

/-- Letters and numbers of every script. -/
def isLetterOrNumber (c : Char) : Bool :=
  if c.val < 0x80 then c.isAlphanum else memberByEdges Table.wordEdges c

/-- The characters of a word: letters, numbers and the underscore. -/
def isWordChar (c : Char) : Bool :=
  isLetterOrNumber c || c == '_'

/-- Whitespace: the ASCII blanks with the four information separators, the next-line control, and
the spaces and line separators of Unicode. -/
def isBlank (c : Char) : Bool :=
  let v := c.val
  (0x09 ≤ v && v ≤ 0x0d) || (0x1c ≤ v && v ≤ 0x20) || v == 0x85 || v == 0xa0 || v == 0x1680 ||
    (0x2000 ≤ v && v ≤ 0x200a) || v == 0x2028 || v == 0x2029 || v == 0x202f || v == 0x205f ||
    v == 0x3000

/-- Characters a quoted text shows as themselves. -/
def isPrintable (c : Char) : Bool :=
  if c.val < 0x80 then 0x20 ≤ c.val && c.val < 0x7f else memberByEdges Table.printableEdges c

/-- Upper-case letters. Title-case letters are not among them. -/
def isUpper (c : Char) : Bool :=
  if c.val < 0x80 then c.isUpper else memberByEdges Table.upperEdges c

/-- Characters that are upper, lower or title case. -/
def isCased (c : Char) : Bool :=
  if c.val < 0x80 then c.isAlpha else memberByEdges Table.casedEdges c

/-- Characters that are skipped when the case of a neighbour is asked for. -/
def isCaseIgnorable (c : Char) : Bool :=
  if c.val < 0x80 then c == '\x27' || c == '.' || c == ':' || c == '^' || c == '\x60'
  else memberByEdges Table.caseIgnorableEdges c

/-- A space is blank. -/
theorem isBlank_of_space : isBlank ' ' = true := by decide

end CodeAtlas.Text
