import CodeAtlas.Yaml.Place

/-!
The texts of scalars. A plain scalar and a scalar in quotes may run over several lines, which are
folded; in double quotes a backslash escapes. A block scalar holds the lines that are indented
deeper than what it belongs to, as they are or folded.
-/

namespace CodeAtlas.Yaml

/-- Line ends as a folded text has them: a single one is a blank, of several the first goes. -/
def folded (breaks : List Char) : List Char :=
  match breaks.map unifyBreak with
  | ['\n'] => [' ']
  | '\n' :: more => more
  | unified => unified

/-- The line ends here, and the place after them and the blanks around them; `none` when the
document ends on the way. -/
def breaks? (isSpace : Char → Bool) (p : Place) : Option (List Char × Place) :=
  go [] p.rest p
where
  /-- The line ends so far, the last one first. -/
  go (done : List Char) : List Char → Place → Option (List Char × Place)
    | [], p => some (done.reverse, p)
    | c :: rest, p =>
      if isBreak c then
        let after := p.next
        if after.atBoundary then none else go (c :: done) rest after
      else if isSpace c then go done rest p.next
      else some (done.reverse, p)

/-! ### Plain scalars -/

/-- How many characters of a plain scalar come in one piece. -/
def plainLength (inFlow : Bool) : List Char → Nat
  | [] => 0
  | c :: rest =>
    let flowMark (c : Char) : Bool := [',', '[', ']', '\x7b', '\x7d'].contains c
    if isGap c then 0
    else if c == ':' && (endsHere rest || (inFlow && rest.head?.any flowMark)) then 0
    else if inFlow && (flowMark c || c == '?') then 0
    else plainLength inFlow rest + 1

/-- What stands between two pieces of a plain scalar, and where the second could start. -/
def plainGap (p : Place) : List Char × Place :=
  let q := p.afterSpaces
  if q.rest.head?.any isBreak then
    match breaks? (· == ' ') q with
    | some (breaks, r) => (folded breaks, r)
    | none => ([], q)
  else (p.rest.takeWhile (· == ' '), q)

/-- A plain scalar: pieces on one line or on several, none of them left of column `least`. -/
def plain (inFlow : Bool) (least : Int) : Nat → List Char → Place → List Char × Place
  | 0, done, p => (done, p)
  | fuel + 1, done, p =>
    let length := plainLength inFlow p.rest
    let done := done ++ p.rest.take length
    let after := p.skip length
    let (gap, q) := plainGap after
    if gap.isEmpty || q.has '#' || (!inFlow && decide ((q.column : Int) < least)) ||
        plainLength inFlow q.rest == 0 then (done, after)
    else plain inFlow least fuel (done ++ gap) q

/-- A plain scalar can start here. -/
def startsPlain (inFlow : Bool) : List Char → Bool
  | [] => false
  | c :: rest =>
    let marks : List Char :=
      ['-', '?', ':', ',', '[', ']', '\x7b', '\x7d', '#', '&', '*', '!', '|', '>', '\x27', '\x22',
        '%', '@', '\x60']
    if isGap c then false
    else if !marks.contains c then true
    else !endsHere rest && (c == '-' || (!inFlow && (c == '?' || c == ':')))

/-! ### Quoted scalars -/

/-- A number of hexadecimal digits as a character. -/
def hexChar? (digits : Nat) (s : List Char) : Option Char := do
  let ds := s.take digits
  let values ← ds.mapM Json.hexDigit?
  let code := values.foldl (fun n d => n * 16 + d) 0
  if ds.length == digits && code.isValidChar then some (Char.ofNat code) else none

/-- The characters that a backslash and one character stand for. -/
def escapes : List (Char × Char) := [
  ('0', '\x00'), ('a', '\x07'), ('b', '\x08'), ('t', '\t'), ('\t', '\t'), ('n', '\n'),
  ('v', '\x0b'), ('f', '\x0c'), ('r', '\r'), ('e', '\x1b'), (' ', ' '), ('\x22', '\x22'),
  ('\\', '\\'), ('/', '/'), ('N', '\u0085'), ('_', '\u00a0'), ('L', '\u2028'), ('P', '\u2029')]

/-- What follows a backslash between double quotes, and the place after it. -/
def escape? (p : Place) : Option (List Char × Place) :=
  match p.rest with
  | [] => none
  | c :: rest =>
    if isBreak c then
      (breaks? (fun c => c == ' ' || c == '\t') p.next).map fun (breaks, q) =>
        (breaks.map unifyBreak, q)
    else
      let hex (digits : Nat) := (hexChar? digits rest).map fun x => ([x], p.skip (digits + 1))
      match c with
      | 'x' => hex 2
      | 'u' => hex 4
      | 'U' => hex 8
      | _ => (escapes.lookup c).map fun x => ([x], p.next)

/-- A quoted scalar after its first quote: its text and the place after its last quote. -/
def quoted? (quote : Char) : Nat → List Char → Place → Option (List Char × Place)
  | 0, _, _ => none
  | fuel + 1, done, p =>
    let isSpace (c : Char) : Bool := c == ' ' || c == '\t'
    match p.rest with
    | [] => none
    | c :: rest =>
      if c == quote then
        if quote == '\x27' && rest.head? == some quote then
          quoted? quote fuel (quote :: done) (p.skip 2)
        else some (done.reverse, p.next)
      else if c == '\\' && quote == '\x22' then
        match escape? p.next with
        | some (written, q) => quoted? quote fuel (written.reverse ++ done) q
        | none => none
      else if isGap c then
        let spaces := p.rest.takeWhile isSpace
        let q := p.skip spaces.length
        if q.rest.head?.any isBreak then
          match breaks? isSpace q with
          | some (breaks, r) => quoted? quote fuel ((folded breaks).reverse ++ done) r
          | none => none
        else quoted? quote fuel (spaces.reverse ++ done) q
      else quoted? quote fuel (c :: done) p.next

/-- A scalar that starts here, plain or in quotes, and the place after it. -/
def scalar? (inFlow : Bool) (least : Int) (p : Place) : Option (Node × Place) :=
  match p.rest with
  | [] => none
  | c :: _ =>
    if c == '\x27' || c == '\x22' then
      (quoted? c (p.rest.length + 1) [] p.next).map fun (text, q) =>
        (.scalar (String.ofList text) false, q)
    else if startsPlain inFlow p.rest then
      let (text, q) := plain inFlow least p.rest.length [] p
      some (.scalar (String.ofList text) true, q)
    else none

/-! ### Block scalars -/

/-- What a block scalar keeps of the line ends after its last line. -/
inductive Chomping where
  /-- The first one. -/
  | clip
  /-- None. -/
  | strip
  /-- All of them. -/
  | keep

/-- How a block scalar is read. -/
structure BlockStyle where
  folds : Bool
  chomping : Chomping
  /-- How much deeper its lines are indented, when that is said. -/
  increment : Option Nat

namespace BlockStyle

/-- The chomping that a sign asks for. -/
def chomping? : Char → Option Chomping
  | '+' => some .keep
  | '-' => some .strip
  | _ => none

/-- The increment that a digit asks for. -/
def increment? (c : Char) : Option Nat :=
  if '1' ≤ c && c ≤ '9' then some (c.toNat - '0'.toNat) else none

/-- The style that the marks behind the sign of a block scalar ask for: at most one of each, in
either order. -/
def ofMarks? (folds : Bool) (marks : List Char) : Option BlockStyle :=
  match marks with
  | [] => some ⟨folds, .clip, none⟩
  | [c] =>
    match chomping? c with
    | some chomping => some ⟨folds, chomping, none⟩
    | none => (increment? c).map fun n => ⟨folds, .clip, some n⟩
  | [c, d] =>
    match chomping? c, increment? d with
    | some chomping, some n => some ⟨folds, chomping, some n⟩
    | _, _ =>
      match increment? c, chomping? d with
      | some n, some chomping => some ⟨folds, chomping, some n⟩
      | _, _ => none
  | _ => none

/-- The style of the block scalar whose sign stands here, and the place at the start of the next
line. Behind the marks only a comment may stand. -/
def read? (p : Place) : Option (BlockStyle × Place) := do
  let isMark (c : Char) : Bool := !isBreak c && c != ' '
  let style ← ofMarks? (p.has '>') (p.next.rest.takeWhile isMark)
  let q := (p.next.skipWhile isMark).afterSpaces
  let r := if q.has '#' then q.skipWhile (!isBreak ·) else q
  if r.rest.head?.all isBreak then some (style, r.next) else none

end BlockStyle

/-- The ends of blank lines, and the place after them and after the spaces up to column `indent`. -/
def blankLines (indent : Nat) (p : Place) : List Char × Place :=
  go [] p.rest p
where
  /-- The line ends so far, the last one first. -/
  go (done : List Char) : List Char → Place → List Char × Place
    | [], p => (done.reverse, p)
    | c :: rest, p =>
      if isBreak c then go (unifyBreak c :: done) rest p.next
      else if c == ' ' && decide (p.column < indent) then go done rest p.next
      else (done.reverse, p)

/-- The largest column that spaces reach before the first text. -/
def widestBlank (p : Place) : Nat :=
  go 0 p.rest p
where
  /-- The largest column so far. -/
  go (widest : Nat) : List Char → Place → Nat
    | [], _ => widest
    | c :: rest, p =>
      if isBreak c then go widest rest p.next
      else if c == ' ' then go (max widest p.next.column) rest p.next
      else widest

/-- The lines of a block scalar at a column. `done` is the text so far, and `breaks` are the ends of
the blank lines before `p`. -/
def blockLines (style : BlockStyle) (indent : Nat) :
    Nat → List Char → List Char → Place → List Char × Place
  | 0, done, _, p => (done, p)
  | fuel + 1, done, breaks, p =>
    let isSpace (c : Char) : Bool := c == ' ' || c == '\t'
    let line := p.rest.takeWhile (!isBreak ·)
    let after := p.skip line.length
    let lineEnd := (after.rest.take 1).map unifyBreak
    let (blank, q) := blankLines indent after.next
    let done := done ++ breaks ++ line
    if q.column == indent && !q.rest.isEmpty then
      let folds := style.folds && lineEnd == ['\n'] && !p.rest.head?.any isSpace &&
        !q.rest.head?.any isSpace
      let gap := if !folds then lineEnd else if blank.isEmpty then [' '] else []
      blockLines style indent fuel (done ++ gap) blank q
    else
      match style.chomping with
      | .clip => (done ++ lineEnd, q)
      | .strip => (done, q)
      | .keep => (done ++ lineEnd ++ blank, q)

/-- The block scalar whose sign stands here, within what is indented by `indent`. Its lines are
indented as it says, or as its first line is. -/
def blockScalar? (indent : Int) (p : Place) : Option (Node × Place) := do
  let (style, q) ← BlockStyle.read? p
  let least := max (indent + 1).toNat 1
  let column := match style.increment with
    | some n => least + n - 1
    | none => max least (widestBlank q)
  let reach := if style.increment.isSome then column else q.rest.length
  let (blank, r) := blankLines reach q
  if r.column == column && !r.rest.isEmpty then
    let (text, t) := blockLines style column (q.rest.length + 1) [] blank r
    return (.scalar (String.ofList text) false, t)
  else
    let text := match style.chomping with
      | .keep => blank
      | _ => []
    return (.scalar (String.ofList text) false, r)

end CodeAtlas.Yaml
