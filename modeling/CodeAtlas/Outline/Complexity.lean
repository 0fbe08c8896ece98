import CodeAtlas.Number.Scalar
import CodeAtlas.Outline.Basic
import CodeAtlas.Pattern.Search
import CodeAtlas.Text.Basic

/-!
Complexity measures over raw text: one more than the number of branching words, and an index of
maintainability that falls with the logarithm of the size and with the complexity.
-/

namespace CodeAtlas

namespace Complexity

open Number (Overflow Scalar)

/-- The words that branch or loop. -/
def keywords : List String := [
  "if", "else", "elif", "elseif", "while", "for", "foreach", "switch", "case", "catch", "try",
  "except"]

/-- A branching word, whole. -/
def keyword : Pattern :=
  .boundary ++ .anyText keywords ++ .boundary

/-- One more than the number of branching words. -/
def cyclomaticOf (text : List Char) : Nat :=
  1 + keyword.count text

/-- `171 - 5.2 ln L - 0.23 C - 16.2 ln L` from `ln L` and `C`, kept between 0 and 100. -/
def indexOf (size complexity : Float) : Float :=
  let index := 171.0 - 5.2 * size - 0.23 * complexity - 16.2 * size
  let capped := if index < 100.0 then index else 100.0
  if 0.0 < capped then capped else 0.0

/-- The index of maintainability for a complexity and a number of code lines; 100 without code
lines. -/
def maintainabilityOf (complexity codeLines : Scalar) : Except Overflow Float :=
  if codeLines ≤ 0 then .ok 100.0
  else complexity.toFloat?.map (indexOf codeLines.log)

/-- The lines of a text; the empty text has none. -/
def linesOf (content : List Char) : List (List Char) :=
  if content.isEmpty then [] else Text.lines content

/-- The number of lines that are not blank. -/
def filledLines (content : List Char) : Nat :=
  (linesOf content).countP (!Text.isBlankText ·)

/-- The lines left as code when `commentLines` of `filled` lines are comment only. -/
def codeLinesOf (filled : Nat) (commentLines : Scalar) : Scalar :=
  let rest := .whole filled - commentLines
  if 0 < rest then rest else 0

/-- The share of comment lines among the filled ones, to four decimals; 0 when there are none. -/
def commentRatioOf (filled : Nat) (commentLines : Scalar) : Except Overflow Float :=
  if filled == 0 then .ok 0.0
  else (commentLines.dividedBy filled).map (Number.roundTo 4)

/-- The measures of a text with `commentLines` lines that are comment only. -/
def ofText (content : List Char) (commentLines : Nat) : Complexity :=
  let filled := filledLines content
  let codeLines := filled - commentLines
  let cyclomatic := cyclomaticOf content
  { totalLines := (linesOf content).length
    codeLines := codeLines
    commentLines := commentLines
    cyclomatic := cyclomatic
    maintainability :=
      if codeLines == 0 then 100.0
      else Number.roundTo 2 (indexOf (Float.log codeLines.toFloat) cyclomatic.toFloat)
    commentRatio :=
      if filled == 0 then 0.0 else Number.roundTo 4 (Number.nearest false commentLines filled) }

/-- The measures of a text with a given number of comment lines, each as it was computed. -/
def measures (content : List Char) (commentLines : Scalar) :
    Except Overflow (List (String × Scalar)) := do
  let filled := filledLines content
  let codeLines := codeLinesOf filled commentLines
  let cyclomatic := .whole (cyclomaticOf content)
  let maintainability ← maintainabilityOf cyclomatic codeLines
  let ratio ← commentRatioOf filled commentLines
  return [("totalLines", .whole (linesOf content).length), ("codeLines", codeLines),
    ("commentLines", commentLines), ("cyclomaticComplexity", cyclomatic),
    ("maintainabilityIndex", .real (Number.roundTo 2 maintainability)),
    ("commentRatio", .real ratio)]

end Complexity

end CodeAtlas
