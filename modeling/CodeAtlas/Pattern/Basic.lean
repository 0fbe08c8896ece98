import CodeAtlas.Text.CharClass

/-!
Text patterns and how they match. A pattern is tried at a cursor and hands each way it can end, in
order of preference, to what follows it; the first way that lets everything after it match is the
match. Repetition of a pattern goes on only while it consumes something, so matching always ends.
-/

namespace CodeAtlas

/-- A place in a text: the character before it, the text after it, and how many characters come
before. -/
structure Cursor where
  before : Option Char
  rest : List Char
  offset : Nat

/-- The start of a text. -/
def Cursor.start (text : List Char) : Cursor :=
  ⟨none, text, 0⟩

/-- A stretch of text between two cursors. -/
structure Span where
  start : Cursor
  stop : Cursor

/-- The text of a span. -/
def Span.text (s : Span) : List Char :=
  s.start.rest.take (s.stop.offset - s.start.offset)

/-- The named stretches recorded so far, latest first. -/
abbrev Captures := List (String × Span)

/-- Whether a repetition prefers more or fewer rounds. -/
inductive Preference where
  | more
  | fewer
  deriving DecidableEq

/-- Patterns. -/
inductive Pattern where
  /-- Matches where it stands. -/
  | here
  /-- One character that `accepts`. -/
  | one (accepts : Char → Bool)
  /-- One pattern, then the other. -/
  | seq (first second : Pattern)
  /-- The first pattern, or failing that the second. -/
  | either (first second : Pattern)
  /-- A run of characters that `accepts`, at most `limit` long. -/
  | run (preference : Preference) (limit : Option Nat) (accepts : Char → Bool)
  /-- A pattern any number of times, as often as possible. -/
  | many (body : Pattern)
  /-- Records what the body matches under a name. -/
  | capture (name : String) (body : Pattern)
  /-- Between a word character and something else. -/
  | boundary
  /-- At the start of a line. -/
  | lineStart
  /-- At the end of the text or before a newline that ends it. -/
  | textEnd
  /-- Where the body does not match. -/
  | absent (body : Pattern)

/-- What follows a pattern: given where it ended, the rest of the match. -/
abbrev Follow := Cursor → Captures → Option (Cursor × Captures)

/-- A word character on exactly one side. -/
def Cursor.atBoundary (c : Cursor) : Bool :=
  (c.before.any Text.isWordChar) != (c.rest.head?.any Text.isWordChar)

/-- No character before, or a newline. -/
def Cursor.atLineStart (c : Cursor) : Bool :=
  c.before.all (· == '\n')

/-- No character after, or a newline and nothing more. -/
def Cursor.atTextEnd (c : Cursor) : Bool :=
  c.rest.isEmpty || c.rest == ['\n']

namespace Pattern

/-- The ends of all runs from a place, longest first. -/
def runEnds (accepts : Char → Bool) (limit : Option Nat) (ends : List Cursor)
    (before : Option Char) (rest : List Char) (offset : Nat) : List Cursor :=
  let ends := ⟨before, rest, offset⟩ :: ends
  match rest with
  | [] => ends
  | c :: rest =>
    match limit with
    | some 0 => ends
    | _ =>
      if accepts c then runEnds accepts (limit.map (· - 1)) ends (some c) rest (offset + 1)
      else ends

/-- The shortest run after which the rest matches. -/
def runShortest (accepts : Char → Bool) (limit : Option Nat) (follow : Follow) (captures : Captures)
    (before : Option Char) (rest : List Char) (offset : Nat) : Option (Cursor × Captures) :=
  match follow ⟨before, rest, offset⟩ captures with
  | some found => some found
  | none =>
    match rest with
    | [] => none
    | c :: rest =>
      match limit with
      | some 0 => none
      | _ =>
        if accepts c then
          runShortest accepts (limit.map (· - 1)) follow captures (some c) rest (offset + 1)
        else none

/-- Rounds of `body` as long as each consumes something, then what follows; fewer rounds when that
fails. -/
def rounds (body : Follow → Follow) (follow : Follow) (c : Cursor) (captures : Captures) :
    Option (Cursor × Captures) :=
  let again : Follow := fun next captures =>
    if next.rest.length < c.rest.length then rounds body follow next captures else none
  match body again c captures with
  | some found => some found
  | none => follow c captures
termination_by c.rest.length

/-- Matches at a cursor, handing each possible end to what follows. -/
def match? : Pattern → Follow → Follow
  | here, follow, c, captures => follow c captures
  | one accepts, follow, c, captures =>
    match c.rest with
    | [] => none
    | x :: rest => if accepts x then follow ⟨some x, rest, c.offset + 1⟩ captures else none
  | seq first second, follow, c, captures => match? first (match? second follow) c captures
  | either first second, follow, c, captures =>
    match match? first follow c captures with
    | some found => some found
    | none => match? second follow c captures
  | run .more limit accepts, follow, c, captures =>
    (runEnds accepts limit [] c.before c.rest c.offset).findSome? (follow · captures)
  | run .fewer limit accepts, follow, c, captures =>
    runShortest accepts limit follow captures c.before c.rest c.offset
  | many body, follow, c, captures => rounds (match? body) follow c captures
  | capture name body, follow, c, captures =>
    match? body (fun stop captures => follow stop ((name, ⟨c, stop⟩) :: captures)) c captures
  | boundary, follow, c, captures => if c.atBoundary then follow c captures else none
  | lineStart, follow, c, captures => if c.atLineStart then follow c captures else none
  | textEnd, follow, c, captures => if c.atTextEnd then follow c captures else none
  | absent body, follow, c, captures =>
    match match? body (fun stop captures => some (stop, captures)) c captures with
    | some _ => none
    | none => follow c captures

instance : Append Pattern := ⟨seq⟩

/-- The characters of a text one after another. -/
def text (s : String) : Pattern :=
  s.toList.foldr (fun c p => seq (one (· == c)) p) here

/-- The first of several patterns that lets the rest match. -/
def oneOf : List Pattern → Pattern
  | [] => one fun _ => false
  | [last] => last
  | first :: rest => either first (oneOf rest)

/-- The first of several texts that lets the rest match. -/
def anyText (texts : List String) : Pattern :=
  oneOf (texts.map text)

/-- A pattern or nothing. -/
def optional (p : Pattern) : Pattern :=
  either p here

/-- As many accepted characters as possible, perhaps none. -/
def run0 (accepts : Char → Bool) : Pattern :=
  run .more none accepts

/-- As many accepted characters as possible, at least one. -/
def run1 (accepts : Char → Bool) : Pattern :=
  seq (one accepts) (run0 accepts)

/-- As few accepted characters as possible, perhaps none. -/
def few0 (accepts : Char → Bool) : Pattern :=
  run .fewer none accepts

/-- As few accepted characters as possible, at least one. -/
def few1 (accepts : Char → Bool) : Pattern :=
  seq (one accepts) (few0 accepts)

/-- Upper and lower case letters are one; so are `s` and the long s, `k` and the kelvin sign, and
`i` with its dotted capital and dotless small form. -/
def foldCase (c : Char) : Char :=
  if c == '\u017f' then 's'
  else if c == '\u212a' then 'k'
  else if c == '\u0130' || c == '\u0131' then 'i'
  else c.toLower

/-- A text whatever the case of its letters. -/
def textAnyCase (s : String) : Pattern :=
  s.toList.foldr (fun c p => seq (one (foldCase · == foldCase c)) p) here

/-- The first of several texts, whatever the case of the letters. -/
def anyTextAnyCase (texts : List String) : Pattern :=
  oneOf (texts.map textAnyCase)

end Pattern

end CodeAtlas
