import CodeAtlas.Outline.Grammar
import CodeAtlas.Text.Basic

/-!
Where a declaration ends. A body in braces ends at the brace that closes it, with texts and comments
skipped; a body by indentation is the longest run of lines that are blank or indented deeper than
its header.
-/

namespace CodeAtlas

namespace Extent

open Text

/-- What the character at hand belongs to while brackets are matched. -/
inductive Mode where
  | code
  /-- A text between two `quote`s. -/
  | quoted (quote : Char)
  /-- The character after a backslash in such a text. -/
  | escaped (quote : Char)
  | lineComment
  /-- The star that opens a block comment. -/
  | blockOpen
  | block
  /-- The slash that closes a block comment. -/
  | blockClose
  deriving DecidableEq

/-- A character that opens a text. -/
def isTextQuote (c : Char) : Bool :=
  c == '\x27' || c == '\x22' || c == '\x60'

/-- The mode after the character `c`, which is followed by `next`. A text in single or double quotes
ends with its line. -/
def Mode.after (mode : Mode) (c : Char) (next : Option Char) : Mode :=
  match mode with
  | .code =>
    if isTextQuote c then .quoted c
    else if c == '/' && next == some '/' then .lineComment
    else if c == '/' && next == some '*' then .blockOpen
    else .code
  | .quoted quote =>
    if c == '\\' then .escaped quote
    else if c == quote then .code
    else if c == '\n' && quote != '\x60' then .code
    else .quoted quote
  | .escaped quote => .quoted quote
  | .lineComment => if next == some '\n' then .code else .lineComment
  | .blockOpen => .block
  | .block => if c == '*' && next == some '/' then .blockClose else .block
  | .blockClose => .code

/-- A pair of brackets. -/
structure Brackets where
  opener : Char
  closer : Char

/-- The depth after a character of code. -/
def Brackets.depthAfter (b : Brackets) (mode : Mode) (depth : Int) (c : Char) : Int :=
  if mode != .code then depth
  else if c == b.opener then depth + 1
  else if c == b.closer then depth - 1
  else depth

/-- The offset of the bracket that closes the one at the start of `text`, with the text after it;
`none` when it is never closed. Brackets in texts and comments do not count. -/
def closing? (b : Brackets) (offset : Nat) (text : List Char) : Option (Nat × List Char) :=
  go .code 0 offset text
where
  /-- `depth` brackets are open before the character at `offset`. -/
  go (mode : Mode) (depth : Int) (offset : Nat) : List Char → Option (Nat × List Char)
    | [] => none
    | c :: rest =>
      let next := b.depthAfter mode depth c
      if mode == .code && c == b.closer && next == 0 then some (offset, rest)
      else go (mode.after c rest.head?) next (offset + 1) rest

/-- The offset of the closing bracket; the last offset of a content of `size` characters when there
is none. -/
def closingOffset (b : Brackets) (size offset : Nat) (text : List Char) : Nat :=
  match closing? b offset text with
  | some (close, _) => close
  | none => size - 1

/-- A content with what is looked up in it. -/
structure Source where
  content : List Char
  size : Nat
  lines : List (List Char)
  starts : List Nat

/-- Prepares a content. -/
def Source.of (content : List Char) : Source :=
  ⟨content, content.length, Text.lines content, lineStarts content⟩

/-- The line of an offset. -/
def Source.lineAt (s : Source) (offset : Nat) : Nat :=
  lineOf s.starts offset

/-- Behind a parameter list that follows at once, perhaps after blanks; otherwise where it stands.
Braces in default values are thus not taken for the body. -/
def afterParameters (offset : Nat) (text : List Char) : Nat × List Char :=
  let gap := text.takeWhile (· != '(')
  match text.dropWhile (· != '(') with
  | [] => (offset, text)
  | tail =>
    if isBlankText gap then
      match closing? ⟨'(', ')'⟩ (offset + gap.length) tail with
      | some (close, rest) => (close + 1, rest)
      | none => (offset + text.length, [])
    else (offset, text)

/-- The last line of a body in braces after a name. A semicolon before any brace ends a declaration
without a body. -/
def braceEnd (s : Source) (name : Cursor) (startLine : Nat) : Nat :=
  let (offset, text) := afterParameters name.offset name.rest
  let brace := text.findIdx? (· == '\x7b')
  let semicolon := text.findIdx? (· == ';')
  match brace, semicolon with
  | none, none => startLine
  | none, some i => s.lineAt (offset + i)
  | some j, none => closeLine offset text j
  | some j, some i => if i < j then s.lineAt (offset + i) else closeLine offset text j
where
  /-- The line of the brace that closes the one at `index`. -/
  closeLine (offset : Nat) (text : List Char) (index : Nat) : Nat :=
    s.lineAt (closingOffset ⟨'\x7b', '\x7d'⟩ s.size (offset + index) (text.drop index))

/-- The width of the blanks at the start of a line, tabs expanded to multiples of four. -/
def indentWidth (line : List Char) : Nat :=
  let expanded := expandTabs 4 line
  expanded.length - (trimStart expanded).length

/-- The offset of the first colon outside brackets; a closing bracket too many counts as none. -/
def headerEnd? (offset : Nat) (text : List Char) : Option Nat :=
  go 0 offset text
where
  /-- `depth` brackets are open. -/
  go (depth offset : Nat) : List Char → Option Nat
    | [] => none
    | c :: rest =>
      if c == '(' || c == '[' || c == '\x7b' then go (depth + 1) (offset + 1) rest
      else if c == ')' || c == ']' || c == '\x7d' then go (depth - 1) (offset + 1) rest
      else if c == ':' && depth == 0 then some offset
      else go depth (offset + 1) rest

/-- The number of the last line that is indented deeper than `base`, before the first filled line
that is not; `last` when there is none. `number` is the line before `lines`. -/
def indentedRun (base last number : Nat) : List (List Char) → Nat
  | [] => last
  | line :: rest =>
    if isBlankText line then indentedRun base last (number + 1) rest
    else if indentWidth line ≤ base then last
    else indentedRun base (number + 1) (number + 1) rest

/-- The last line of a body by indentation after a name. -/
def indentEnd (s : Source) (name : Cursor) (startLine : Nat) : Nat :=
  let base := indentWidth (s.lines.getD (startLine - 1) [])
  let header := s.lineAt ((headerEnd? name.offset name.rest).getD (s.size - 1))
  indentedRun base header header (s.lines.drop header)

/-- The last line of a declaration whose name ends at a cursor. -/
def lastLine (g : Grammar) (s : Source) (name : Cursor) (startLine : Nat) : Nat :=
  if g.endsByIndent then indentEnd s name startLine else braceEnd s name startLine

end Extent

end CodeAtlas
