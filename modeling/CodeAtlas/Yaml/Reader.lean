import CodeAtlas.Yaml.Property
import CodeAtlas.Yaml.Text

/-!
Reading a YAML document, in block style by indentation or in flow style by brackets, with comments,
names for nodes and tags.

A key stands on one line; what belongs to it stands further to the right than the key, but the items
of a list may stand right below it. A list or mapping is no key.
-/

namespace CodeAtlas.Yaml

/-! ### Keys -/

/-- How far behind the start of a key its colon may stand. -/
def keyReach : Nat := 1024

/-- The key that starts here and has its colon on its line, and the place after the colon. -/
def key? (inFlow : Bool) (p : Place) : Option (Content × Place) := do
  let (c, q) ←
    if p.has '*' then reference? p
    else do
      let (o, q) ← Properties.read? p
      let t := q.afterSpaces
      if !o.isNone && t.has ':' then o.close? .empty t
      else
        let (n, r) ← scalar? inFlow 0 t
        o.close? n r
  let r := q.afterSpaces
  if r.has ':' && (inFlow || r.atSign ':') && r.line == p.line && r.index ≤ p.index + keyReach then
    return (c, r.next)
  else none

/-- A name or tag that stands at `p`, below the tag or name that it goes with, and not before a key.
-/
def laterProperties? (inFlow : Bool) (o : Properties) (p : Place) : Option (Properties × Place) :=
  if (p.has '&' || p.has '!') && (key? inFlow p).isNone then o.joined? p else none

/-! ### Flow style -/

mutual

/-- A node between brackets. -/
def flow? : Nat → Place → Option (Content × Place)
  | 0, _ => none
  | fuel + 1, p =>
    if p.has '*' then reference? p
    else do
      let (o, q) ← Properties.read? p
      let (o, q) := (laterProperties? true o q.toToken).getD (o, q)
      let t := q.toToken
      if !o.isNone && t.hasOne [',', ':', ']', '\x7d'] then o.close? .empty q
      else
        let (n, r) ← flowNode? fuel (← o.opened? t)
        o.close? n r

/-- A list or mapping in brackets, or a scalar among them. -/
def flowNode? : Nat → Place → Option (Node × Place)
  | 0, _ => none
  | fuel + 1, p =>
    match p.rest with
    | '[' :: _ => flowItems? fuel [] p.next
    | '\x7b' :: _ => flowEntries? fuel [] p.next
    | _ => scalar? true 0 p

/-- What follows the colon of a key between brackets. -/
def flowValue? : Nat → Place → Option (Content × Place)
  | 0, _ => none
  | fuel + 1, p =>
    let t := p.toToken
    if t.hasOne [',', ']', '\x7d'] then some (.empty, p) else flow? fuel t

/-- An entry with a key between brackets: the key may have a question mark. -/
def flowEntry? : Nat → Place → Option ((Content × Content) × Place)
  | 0, _ => none
  | fuel + 1, p => do
    let (key, after, hasColon) ←
      if p.has '?' then do
        let t := p.next.toToken
        let (c, q) ←
          if t.hasOne [':', ',', ']', '\x7d'] then some (Content.empty, p.next)
          else flow? fuel t
        let n := q.toToken
        if n.has ':' then some (c, n.next, true) else some (c, q, false)
      else (key? true p).map fun (key, v) => (key, v, true)
    let (c, q) ← if hasColon then flowValue? fuel after else some (.empty, after)
    return ((key, c), q)

/-- The items of a list up to its closing bracket. -/
def flowItems? : Nat → List Content → Place → Option (Node × Place)
  | 0, _, _ => none
  | fuel + 1, done, p =>
    let t := p.toToken
    if t.has ']' then some (.list done.reverse, t.next)
    else do
      let (item, q) ←
        match flowEntry? fuel t with
        | some (e, q) => some (.ofEntries [e], q)
        | none => flow? fuel t
      let n := q.toToken
      match n.rest with
      | ',' :: _ => flowItems? fuel (item :: done) n.next
      | ']' :: _ => some (.list (item :: done).reverse, n.next)
      | _ => none

/-- The entries of a mapping up to its closing bracket. -/
def flowEntries? : Nat → List (Content × Content) → Place → Option (Node × Place)
  | 0, _, _ => none
  | fuel + 1, done, p =>
    let t := p.toToken
    if t.has '\x7d' then some (.mapping done.reverse, t.next)
    else do
      let (e, q) ←
        match flowEntry? fuel t with
        | some (e, q) => some (e, q)
        | none => (flow? fuel t).map fun (c, q) => ((c, Content.empty), q)
      let n := q.toToken
      match n.rest with
      | ',' :: _ => flowEntries? fuel (e :: done) n.next
      | '\x7d' :: _ => some (.mapping (e :: done).reverse, n.next)
      | _ => none

end

/-! ### Block style -/

mutual

/-- A node right of `indent`. `mayOpen` says whether a list or mapping may start here, and
`belowKey` whether the items of a list may stand at `indent` itself. -/
def block? : Nat → Int → Bool → Bool → Place → Option (Content × Place)
  | 0, _, _, _, _ => none
  | fuel + 1, indent, mayOpen, belowKey, p =>
    if (key? false p).isNone && p.has '*' then reference? p
    else do
      let (o, q) ← if (key? false p).isSome then some (⟨none, none⟩, p) else Properties.read? p
      if o.isNone then
        let (n, r) ← blockNode? fuel indent mayOpen p
        o.close? n r
      else
        let later := q.toToken
        let (o, q) :=
          (if indent < later.column then laterProperties? false o later else none).getD (o, q)
        let t := q.toToken
        if t.atEnd then o.close? .empty q
        else if t.line == q.line then
          let (n, r) ← blockNode? fuel indent false (← o.opened? t)
          o.close? n r
        else if belowKey && (t.column : Int) == indent && t.atSign '-' then
          let (n, r) ← blockItems? fuel t.column true [] (← o.opened? t)
          o.close? n r
        else if (t.column : Int) ≤ indent then o.close? .empty q
        else
          let (n, r) ← blockNode? fuel indent true (← o.opened? t)
          o.close? n r

/-- A node right of `indent` that has no name and no tag. -/
def blockNode? : Nat → Int → Bool → Place → Option (Node × Place)
  | 0, _, _, _ => none
  | fuel + 1, indent, mayOpen, p =>
    if p.atSign '-' then if mayOpen then blockItems? fuel p.column false [] p else none
    else if p.atSign '?' || (key? false p).isSome then
      if mayOpen then blockEntries? fuel p.column [] p else none
    else if p.hasOne ['[', '\x7b'] then flowNode? fuel p
    else if p.hasOne ['|', '>'] then blockScalar? indent p
    else scalar? false (indent + 1) p

/-- What belongs to a key at a column. -/
def blockValue? : Nat → Nat → Bool → Place → Option (Content × Place)
  | 0, _, _, _ => none
  | fuel + 1, column, mayOpen, p =>
    let t := p.toToken
    if t.atEnd then some (.empty, p)
    else if !t.fresh then block? fuel column mayOpen true t
    else if column < t.column then block? fuel column true true t
    else if t.column == column && t.atSign '-' then do
      let (n, q) ← blockItems? fuel column true [] t
      return (n.content none, q)
    else some (.empty, p)

/-- The entry of a mapping at a column whose key stands here: the key may have a question mark, and
then its colon stands below it. -/
def blockEntry? : Nat → Nat → Place → Option ((Content × Content) × Place)
  | 0, _, _ => none
  | fuel + 1, column, p => do
    if p.atSign '?' then
      let (key, q) ← blockValue? fuel column true p.next
      let t := q.toToken
      if t.fresh && t.column == column && t.atSign ':' then
        let (v, r) ← blockValue? fuel column true t.next
        return ((key, v), r)
      else return ((key, .empty), q)
    else
      let (key, v) ← key? false p
      let (c, q) ← blockValue? fuel column false v
      return ((key, c), q)

/-- The entries of a mapping at a column, from the key that stands here on. -/
def blockEntries? : Nat → Nat → List (Content × Content) → Place → Option (Node × Place)
  | 0, _, _, _ => none
  | fuel + 1, column, done, p => do
    let (e, q) ← blockEntry? fuel column p
    let n := q.toToken
    if n.atEnd || (n.fresh && decide (n.column < column)) then
      return (.mapping (e :: done).reverse, q)
    else if n.fresh && n.column == column then blockEntries? fuel column (e :: done) n
    else none

/-- The items of a list at a column, from the dash that stands here on. A list right below its key
ends where the next key starts. -/
def blockItems? : Nat → Nat → Bool → List Content → Place → Option (Node × Place)
  | 0, _, _, _, _ => none
  | fuel + 1, column, belowKey, done, p => do
    let t := p.next.toToken
    let (item, q) ←
      if t.atEnd || (t.fresh && decide (t.column ≤ column)) then some (Content.empty, p.next)
      else block? fuel column true false t
    let n := q.toToken
    if n.fresh && n.column == column && n.atSign '-' then
      blockItems? fuel column belowKey (item :: done) n
    else if n.atEnd || (n.fresh && (decide (n.column < column) || (belowKey && n.column == column)))
      then return (.list (item :: done).reverse, q)
    else none

end

/-! ### Documents -/

/-- The directive that gives a handle for tags, from its word on, and the place after it. A handle
is given once. -/
def handleDirective? (p : Place) : Option Place := do
  let (handle, q) ← handle? p.afterSpaces
  if !q.has ' ' || (p.handles.lookup handle).isSome then none
  let (start, r) ← tagName? q.afterSpaces
  let t := r.afterSpaces
  let u := if t.has '#' then t.skipWhile (!isBreak ·) else t
  if endsTag r && u.rest.head?.all isBreak then
    some { u with handles := (handle, start) :: u.handles }
  else none

/-- The directives before a document, and the place after them. At most one is a version, and the
version starts with a one. -/
def directives? : Nat → Bool → Place → Option Place
  | 0, _, _ => none
  | fuel + 1, versioned, p =>
    let t := p.toToken
    if !(t.column == 0 && t.has '%') then some t
    else
      let isName (c : Char) : Bool := c.isAlphanum || c == '-' || c == '_'
      let line := t.next.rest.takeWhile (!isBreak ·)
      let name := String.ofList (line.takeWhile isName)
      let words := line.drop name.length
      let after := t.skipWhile (!isBreak ·)
      if name == "YAML" then
        if !versioned && version.matchesAll words then directives? fuel true after else none
      else if name == "" || !(words.head?.all (· == ' ')) then none
      else if name == "TAG" then
        match handleDirective? (t.skip (name.length + 1)) with
        | some q => directives? fuel versioned q
        | none => none
      else directives? fuel versioned after
where
  /-- A version and perhaps a comment. -/
  version : Pattern :=
    open Pattern in
    run1 (· == ' ') ++ run0 (· == '0') ++ text "1." ++ run1 Char.isDigit ++
      optional (run1 (· == ' ') ++ optional (text "#" ++ run0 (fun _ => true)))

/-- After the marks that end a document. -/
def afterEndMarks : Nat → Place → Place
  | 0, p => p
  | fuel + 1, p => if p.isMark "..." then afterEndMarks fuel (p.skip 3).toToken else p

/-- The only document of a text; an empty one is null. A document with directives has a mark at its
start. -/
def document? (text : List Char) : Option Content := do
  let first := Place.start text
  let start := (if first.has '\ufeff' then { first.next with fresh := true } else first).toToken
  let opening ← directives? (text.length + 1) false start
  let marked := opening.isMark "---"
  if (!marked && start.has '%' && start.column == 0) || opening.isMark "..." then none
  else if !marked && opening.rest.isEmpty then some .empty
  else
    let p := if marked then (opening.skip 3).toToken else opening
    let (c, q) ←
      if p.atEnd then some (.empty, p)
      else block? (6 * text.length + 6) (-1) p.fresh false p
    if (afterEndMarks text.length q.toToken).rest.isEmpty then some c else none

/-- Reads a text. -/
def read (text : String) : Except Fault Value :=
  let chars := unifyLineEnds text.toList
  match if chars.all isAllowed then document? chars else none with
  | some c => c.read
  | none => .error .unfit

end CodeAtlas.Yaml
