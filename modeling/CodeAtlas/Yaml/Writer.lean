import CodeAtlas.Number.Shortest
import CodeAtlas.Text.Base64
import CodeAtlas.Value.Json
import CodeAtlas.Yaml.Scalar

/-!
Writing a value as a YAML document in block style. A text is plain where that reads back as the same
text, else in single quotes, and in double quotes when it holds what only an escape can say. Lines
are broken at a blank once they are longer than the width.
-/

namespace CodeAtlas.Yaml

/-- A line is broken at a blank that stands beyond this column. -/
def width : Nat := 80

/-- A line end and the blanks at the start of the next line. -/
def newLine (indent : Nat) : List Char :=
  '\n' :: List.replicate indent ' '

/-- A character that needs no escape. -/
def isBasic (c : Char) : Bool :=
  c == '\n' || (' ' ≤ c && c ≤ '~')

/-- A blank before which a colon, or after which a comment mark, has a meaning. -/
def isSeparator (c : Char) : Bool :=
  c == ' ' || c == '\n'

/-- Nothing in a text has a meaning of its own, looking at each character and what is around it. -/
def isInnocent : Option Char → List Char → Bool
  | _, [] => true
  | before, c :: rest =>
    let ends := rest.head?.all isSeparator
    let harmless := match before with
      | none =>
        let marks : List Char :=
          ['#', ',', '[', ']', '\x7b', '\x7d', '&', '*', '!', '|', '>', '\x27', '\x22', '%', '@',
            '\x60']
        !marks.contains c && !((c == '?' || c == ':' || c == '-') && ends)
      | some b => !(c == ':' && ends) && !(c == '#' && isSeparator b)
    harmless && isInnocent (some c) rest

/-- A text can stand plain. -/
def standsPlain (s : List Char) : Bool :=
  let outer (c : Option Char) : Bool := c.any isSeparator
  s.all (fun c => isBasic c && c != '\n') && !outer s.head? && !outer s.getLast? &&
    !"---".toList.isPrefixOf s && !"...".toList.isPrefixOf s && isInnocent none s &&
    (Plain.ofText (String.ofList s)).isText

/-- A blank next to a line end. -/
def hasLooseBreak : List Char → Bool
  | a :: b :: rest =>
    (a == ' ' && b == '\n') || (a == '\n' && b == ' ') || hasLooseBreak (b :: rest)
  | _ => false

/-- A text can stand in single quotes. -/
def standsSingle (s : List Char) : Bool :=
  s.all isBasic && !hasLooseBreak s

/-- A text in runs of blanks, of line ends and of other characters. -/
def runs (s : List Char) : List (List Char) :=
  let sort (c : Char) : Nat := if c == ' ' then 0 else if c == '\n' then 1 else 2
  s.splitBy fun a b => sort a == sort b

/-- A run of a text outside double quotes. A single blank between others breaks a long line; line
ends are written once more than they are. -/
def writeRun (indent : Nat) (isOuter : Bool) (column : Nat) (run : List Char) : List Char × Nat :=
  if run == [' '] && width < column && !isOuter then (newLine indent, indent)
  else if run.head? == some '\n' then ('\n' :: run ++ List.replicate indent ' ', indent)
  else
    let written := run.flatMap fun c => if c == '\x27' then ['\x27', '\x27'] else [c]
    (written, column + written.length)

/-- The runs of a text in single quotes, from a column on. -/
def writeRuns (indent : Nat) (isFirst : Bool) (column : Nat) : List (List Char) → List Char
  | [] => []
  | run :: rest =>
    let (written, column) := writeRun indent (isFirst || rest.isEmpty) column run
    written ++ writeRuns indent false column rest

/-- The runs of a plain text, from a column on. -/
def writePlain (indent column : Nat) : List (List Char) → List Char
  | [] => []
  | run :: rest =>
    if run == [' '] && width < column then newLine indent ++ writePlain indent indent rest
    else run ++ writePlain indent (column + run.length) rest

/-- The characters with an escape of their own. -/
def shortEscapes : List (Char × Char) := [
  ('\x00', '0'), ('\x07', 'a'), ('\x08', 'b'), ('\t', 't'), ('\n', 'n'), ('\x0b', 'v'),
  ('\x0c', 'f'), ('\r', 'r'), ('\x1b', 'e'), ('\x22', '\x22'), ('\\', '\\'), ('\u0085', 'N'),
  ('\u00a0', '_'), ('\u2028', 'L'), ('\u2029', 'P')]

/-- A number with `count` hexadecimal digits in capitals. -/
def hexDigits (count n : Nat) : List Char :=
  let digits := (Nat.toDigits 16 n).map Char.toUpper
  List.replicate (count - digits.length) '0' ++ digits

/-- The escape of a character between double quotes, when it needs one. -/
def escapeOf? (c : Char) : Option (List Char) :=
  if ' ' ≤ c && c ≤ '~' && c != '\x22' && c != '\\' then none
  else match shortEscapes.lookup c with
    | some short => some ['\\', short]
    | none =>
      if c.val ≤ 0xff then some ('\\' :: 'x' :: hexDigits 2 c.toNat)
      else if c.val ≤ 0xffff then some ('\\' :: 'u' :: hexDigits 4 c.toNat)
      else some ('\\' :: 'U' :: hexDigits 8 c.toNat)

/-- A text between double quotes. `pending` is read but not yet written, the last character first; a
long line is broken before a blank or after an escape, except next to a quote. -/
def writeDouble (indent : Nat) (isFirst : Bool) (column : Nat) (pending : List Char) :
    List Char → List Char
  | [] => pending.reverse
  | c :: rest =>
    let escape := escapeOf? c
    let flushed := match escape with
      | some written => pending.reverse ++ written
      | none => []
    let column := column + flushed.length
    let left := if escape.isSome then [] else pending
    let reach : Int := if escape.isSome then column - 1 else column + left.length
    let mayBreak := !isFirst && !rest.isEmpty && (c == ' ' || left.isEmpty)
    if mayBreak && decide ((width : Int) < reach) then
      let upcoming := if escape.isSome then rest.head? else some c
      let mark : List Char := if upcoming == some ' ' then ['\\'] else []
      flushed ++ left.reverse ++ ['\\'] ++ newLine indent ++ mark ++
        writeDouble indent false (indent + mark.length) (if escape.isSome then [] else [c]) rest
    else
      flushed ++ writeDouble indent false column (if escape.isSome then [] else c :: left) rest

/-- A text that starts at a column; further lines are indented. -/
def writeText (indent column : Nat) (s : String) : String :=
  let chars := s.toList
  String.ofList <|
    if standsPlain chars then writePlain indent column (runs chars)
    else if standsSingle chars then
      '\x27' :: writeRuns indent true (column + 1) (runs chars) ++ ['\x27']
    else '\x22' :: writeDouble indent true (column + 1) [] chars ++ ['\x22']

/-- Real numbers: as short as they read back, always with a point. -/
def writeReal (x : Float) : String :=
  let style : Number.FloatStyle := ⟨-3, 16, true, 2, ".inf", ".nan"⟩
  let written := (style.shortest x).toList
  if written.contains '.' || !written.contains 'e' then String.ofList written
  else String.ofList (written.flatMap fun c => if c == 'e' then ['.', '0', 'e'] else [c])

/-- A value that stands on the line of its key or dash. -/
def writeInline (indent column : Nat) : Value → String
  | .null => "null"
  | .bool b => if b then "true" else "false"
  | .int n => toString n
  | .real x => writeReal x
  | .text s => writeText indent column s
  | .time s => s
  | .bytes data => "!!binary \"" ++ String.ofList (Text.Base64.encode data) ++ "\""
  | .list _ => "[]"
  | .object _ => "\x7b\x7d"

/-- Blanks at the start of a line. -/
def blanks (n : Nat) : String :=
  String.ofList (List.replicate n ' ')

/-- Lines below a dash: the first one follows it. -/
def itemLines (indent : Nat) : List String → List String
  | [] => []
  | first :: rest =>
    (blanks indent ++ "- " ++ String.ofList (first.toList.drop (indent + 2))) :: rest

mutual

/-- The lines of a value that does not stand inline; each starts with its indentation. -/
def lines (indent : Nat) : Value → List String
  | .list items => listLines indent items
  | .object entries => objectLines indent entries
  | v => [blanks indent ++ writeInline indent indent v]

/-- The lines of a list. -/
def listLines (indent : Nat) : List Value → List String
  | [] => []
  | v :: rest =>
    (match v with
      | .list (i :: is) => itemLines indent (listLines (indent + 2) (i :: is))
      | .object (e :: es) => itemLines indent (objectLines (indent + 2) (e :: es))
      | v => [blanks indent ++ "- " ++ writeInline (indent + 2) (indent + 2) v]) ++
    listLines indent rest

/-- The lines of a mapping. The items of a list stand right below their key. -/
def objectLines (indent : Nat) : List (String × Value) → List String
  | [] => []
  | (key, v) :: rest =>
    let start := blanks indent ++ writeText indent indent key ++ ":"
    (match v with
      | .list (i :: is) => start :: listLines indent (i :: is)
      | .object (e :: es) => start :: objectLines (indent + 2) (e :: es)
      | v => [start ++ " " ++ writeInline (indent + 2) (start.length + 1) v]) ++
    objectLines indent rest

end

/-- The document of a value. -/
def write (v : Value) : String :=
  String.join ((lines 0 v).map (· ++ "\n"))

end CodeAtlas.Yaml
