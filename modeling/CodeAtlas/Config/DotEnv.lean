import CodeAtlas.Text.Basic

/-!
Environment files: a line gives a variable a value, bare, in single quotes or in double quotes.
Quoted values may run over several lines. A line that cannot be read is passed by. In a value
`${name}` stands for the variable of that name, and `${name:-text}` for `text` when there is none.
-/

namespace CodeAtlas.DotEnv

open Text

/-- Ends a line. -/
def isLineEnd (c : Char) : Bool :=
  c == '\n' || c == '\r'

/-- A blank within a line. -/
def isGap (c : Char) : Bool :=
  isBlank c && !isLineEnd c

/-- Without the blanks at the start of the line. -/
def skipGaps (s : List Char) : List Char :=
  s.dropWhile isGap

/-- What follows the present line. -/
def nextLine (s : List Char) : List Char :=
  match s.dropWhile (!isLineEnd ·) with
  | '\r' :: '\n' :: rest => rest
  | _ :: rest => rest
  | [] => []

/-- The word `export` and the blanks after it are passed by. -/
def skipExport (s : List Char) : List Char :=
  match dropStart? "export".toList s with
  | some rest => if rest.head?.any isGap then skipGaps rest else s
  | none => s

/-- The name of a variable, when one stands here, and what follows it. A comment has no name. -/
def name? (s : List Char) : Option (Option String × List Char) :=
  match s with
  | '#' :: _ => some (none, s)
  | '\x27' :: rest =>
    let name := rest.takeWhile (· != '\x27')
    match rest.drop name.length with
    | _ :: after => if name.isEmpty then none else some (some (String.ofList name), after)
    | [] => none
  | _ =>
    let isName (c : Char) : Bool := c != '=' && c != '#' && !isBlank c
    let name := s.takeWhile isName
    if name.isEmpty then none else some (some (String.ofList name), s.dropWhile isName)

/-- What a backslash and a character stand for within double quotes. -/
def escaped? : Char → Option Char
  | '\\' => some '\\'
  | '\x27' => some '\x27'
  | '\x22' => some '\x22'
  | 'a' => some '\x07'
  | 'b' => some '\x08'
  | 'f' => some '\x0c'
  | 'n' => some '\n'
  | 'r' => some '\r'
  | 't' => some '\t'
  | 'v' => some '\x0b'
  | _ => none

/-- What a backslash and a character stand for within single quotes. -/
def escapedSingle? : Char → Option Char
  | '\\' => some '\\'
  | '\x27' => some '\x27'
  | _ => none

/-- With escapes replaced by what they stand for. -/
def unescape (escape? : Char → Option Char) : List Char → List Char
  | [] => []
  | [c] => [c]
  | c :: d :: rest =>
    if c == '\\' then
      match escape? d with
      | some e => e :: unescape escape? rest
      | none => c :: unescape escape? (d :: rest)
    else c :: unescape escape? (d :: rest)

/-- The inside of a quoted value and what follows it. A backslash keeps the character after it
inside, which may not be a line's end. -/
def quoted? (quote : Char) (s : List Char) : Option (List Char × List Char) :=
  go [] s
where
  /-- `done` is the inside so far, nearest character first. -/
  go (done : List Char) : List Char → Option (List Char × List Char)
    | [] => none
    | ['\\'] => none
    | '\\' :: c :: rest => if c == '\n' then none else go (c :: '\\' :: done) rest
    | c :: rest => if c == quote then some (done.reverse, rest) else go (c :: done) rest

/-- A bare value: up to a comment that blanks stand before, without blanks at both ends. -/
def bare (line : List Char) : List Char :=
  trim (go line)
where
  /-- Up to the first blanks that a `#` follows. -/
  go : List Char → List Char
    | [] => []
    | c :: rest =>
      if isBlank c && (rest.dropWhile isBlank).head? == some '#' then [] else c :: go rest

/-- The value after an equals sign and what follows it. -/
def value? (s : List Char) : Option (List Char × List Char) :=
  match skipGaps s with
  | '\x27' :: rest => (quoted? '\x27' rest).map fun (v, rest) => (unescape escapedSingle? v, rest)
  | '\x22' :: rest => (quoted? '\x22' rest).map fun (v, rest) => (unescape escaped? v, rest)
  | _ => some (bare (s.takeWhile (!isLineEnd ·)), s.dropWhile (!isLineEnd ·))

/-- After a value only a comment may stand on its line. -/
def endsLine (s : List Char) : Bool :=
  match skipGaps s with
  | [] => true
  | c :: _ => c == '#' || isLineEnd c

/-- The variable that a line names, if it can be read, and the lines after it. A name that stands
alone has no value. -/
def binding (s : List Char) : Option (String × Option (List Char)) × List Char :=
  match name? (skipExport s) with
  | none => (none, nextLine s)
  | some (none, rest) => (none, nextLine rest)
  | some (some name, rest) =>
    match skipGaps rest with
    | '=' :: rest =>
      match value? rest with
      | some (v, rest) => (if endsLine rest then some (name, some v) else none, nextLine rest)
      | none => (none, nextLine rest)
    | rest => (if endsLine rest then some (name, none) else none, nextLine rest)

/-- The variables that a text names, in order; `fuel` bounds the number of lines. -/
def bindings (fuel : Nat) (s : List Char) : List (String × Option (List Char)) :=
  match fuel with
  | 0 => []
  | fuel + 1 =>
    match s.dropWhile isBlank with
    | [] => []
    | s =>
      match binding s with
      | (some b, rest) => b :: bindings fuel rest
      | (none, rest) => bindings fuel rest

/-- The inside of a reference `${…}` and what follows it. -/
def reference? (s : List Char) : Option ((List Char × Option (List Char)) × List Char) :=
  match dropStart? ['$', '\x7b'] s with
  | none => none
  | some inside =>
    let isName (c : Char) : Bool := c != '\x7d' && c != ':'
    let name := inside.takeWhile isName
    match inside.drop name.length with
    | '\x7d' :: rest => some ((name, none), rest)
    | ':' :: '-' :: more =>
      let text := more.takeWhile (· != '\x7d')
      match more.drop text.length with
      | _ :: rest => some ((name, some text), rest)
      | [] => none
    | _ => none

/-- With references replaced, those to a variable with no value by nothing; `fuel` bounds the number
of steps. -/
def expand (fuel : Nat) (known : List (String × Option String)) (s : List Char) : List Char :=
  match fuel, s with
  | 0, _ => s
  | _, [] => []
  | fuel + 1, c :: rest =>
    match reference? (c :: rest) with
    | some ((name, default), rest) =>
      let value := match known.lookup (String.ofList name) with
        | some v => (v.getD "").toList
        | none => default.getD []
      value ++ expand fuel known rest
    | none => c :: expand fuel known rest

/-- Without a mark of the encoding at the start. -/
def withoutMark (s : List Char) : List Char :=
  match s with
  | '\ufeff' :: rest => rest
  | _ => s

/-- The variables of a file, each with its last value, if it has one. References see the file's
variables before them, then the environment. -/
def assigned (environment : List (String × String)) (file : String) :
    List (String × Option String) :=
  let chars := withoutMark file.toList
  ((bindings (chars.length + 1) chars).foldl add []).reverse
where
  /-- What the environment gives a value. -/
  outer : List (String × Option String) :=
    environment.map fun (name, value) => (name, some value)
  /-- The variables so far with one more, which replaces one of its name; latest first. -/
  add (done : List (String × Option String)) (b : String × Option (List Char)) :
      List (String × Option String) :=
    let value := b.2.map fun v => String.ofList (expand v.length (done ++ outer) v)
    match done.lookup b.1 with
    | some _ => done.map fun old => if old.1 == b.1 then (b.1, value) else old
    | none => (b.1, value) :: done

end CodeAtlas.DotEnv
