import CodeAtlas.Pattern.Search

/-!
What sort of thing a plain scalar of YAML 1.1 is, told by its text: null, a truth value, a number, a
point in time or a text. Numbers may hold underscores, and whole and real numbers may be written in
base sixty with colons.
-/

namespace CodeAtlas.Yaml

namespace Shape

open Pattern

/-- A digit. -/
def digit : Pattern :=
  one Char.isDigit

/-- One or two digits. -/
def shortDigits : Pattern :=
  digit ++ optional digit

/-- An optional sign. -/
def sign : Pattern :=
  optional (one fun c => c == '-' || c == '+')

/-- A digit in a number with underscores. -/
def isGrouped (c : Char) : Bool :=
  c.isDigit || c == '_'

/-- Pieces below sixty, each after a colon. -/
def sixtieths : Pattern :=
  let piece := text ":" ++ optional (one fun c => '0' ≤ c && c ≤ '5') ++ digit
  piece ++ many piece

/-- Whole numbers: in base two, eight, ten and sixteen, and in base sixty. -/
def int : Pattern :=
  let hex (c : Char) : Bool :=
    isGrouped c || ('a' ≤ c && c ≤ 'f') || ('A' ≤ c && c ≤ 'F')
  let positive := (one fun c => '1' ≤ c && c ≤ '9') ++ run0 isGrouped
  sign ++ oneOf [
    text "0b" ++ run1 (fun c => c == '0' || c == '1' || c == '_'),
    text "0x" ++ run1 hex,
    text "0" ++ run0 (fun c => ('0' ≤ c && c ≤ '7') || c == '_'),
    positive ++ optional sixtieths]

/-- Real numbers have a point; the words for infinity and for what is no number start with one. -/
def real : Pattern :=
  let power := optional (one (fun c => c == 'e' || c == 'E') ++
    one (fun c => c == '-' || c == '+') ++ run1 Char.isDigit)
  let numeral := digit ++ run0 isGrouped
  oneOf [
    sign ++ numeral ++ text "." ++ run0 isGrouped ++ power,
    text "." ++ numeral ++ power,
    sign ++ numeral ++ sixtieths ++ text "." ++ run0 isGrouped,
    sign ++ anyText [".inf", ".Inf", ".INF"],
    anyText [".nan", ".NaN", ".NAN"]]

/-- Four digits. -/
def year : Pattern :=
  digit ++ digit ++ digit ++ digit

/-- A date with months and days of one digit or two. -/
def looseDate : Pattern :=
  year ++ text "-" ++ shortDigits ++ text "-" ++ shortDigits

/-- A calendar date, or a date and a time of day with perhaps a fraction and an offset. -/
def time : Pattern :=
  let gap : Char → Bool := fun c => c == ' ' || c == '\t'
  let date := year ++ text "-" ++ digit ++ digit ++ text "-" ++ digit ++ digit
  let clock := shortDigits ++ text ":" ++ digit ++ digit ++ text ":" ++ digit ++ digit ++
    optional (text "." ++ run0 Char.isDigit)
  let offset := run0 gap ++ either (text "Z")
    (one (fun c => c == '-' || c == '+') ++ shortDigits ++ optional (text ":" ++ digit ++ digit))
  either date
    (looseDate ++ either (anyText ["T", "t"]) (run1 gap) ++ clock ++ optional offset)

end Shape

/-- What a plain scalar is. -/
inductive Plain where
  | null
  | bool
  | int
  | real
  | time
  /-- The mark under which a mapping takes over the entries of another. -/
  | merge
  /-- The mark for a value without a key of its own. -/
  | equals
  | text
  deriving DecidableEq

namespace Plain

/-- The words for truth values. -/
def boolOf? (s : String) : Option Bool :=
  if ["yes", "Yes", "YES", "true", "True", "TRUE", "on", "On", "ON"].contains s then some true
  else if ["no", "No", "NO", "false", "False", "FALSE", "off", "Off", "OFF"].contains s then
    some false
  else none

/-- The words for null. -/
def isNull (s : String) : Bool :=
  ["", "~", "null", "Null", "NULL"].contains s

/-- What a plain scalar is. -/
def ofText (s : String) : Plain :=
  let chars := s.toList
  if isNull s then null
  else if (boolOf? s).isSome then bool
  else if s == "<<" then merge
  else if s == "=" then equals
  else if Shape.real.matchesAll chars then real
  else if Shape.int.matchesAll chars then int
  else if Shape.time.matchesAll chars then time
  else text

/-- Nothing but a text. -/
def isText (p : Plain) : Bool :=
  p == text

end Plain

end CodeAtlas.Yaml
