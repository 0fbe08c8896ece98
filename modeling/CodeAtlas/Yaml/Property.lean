import CodeAtlas.Yaml.Place

/-!
What may stand before a node: its name, under which it can be referred to further on, and its tag.
-/

namespace CodeAtlas.Yaml

/-! ### Names -/

/-- A node's name and the place after it. -/
def name? (p : Place) : Option (String × Place) :=
  let isName (c : Char) : Bool := c.isAlphanum || c == '-' || c == '_'
  let mayFollow (c : Char) : Bool :=
    isGap c || ['?', ':', ',', ']', '\x7d', '%', '@', '\x60'].contains c
  let name := p.rest.takeWhile isName
  let q := p.skip name.length
  if !name.isEmpty && q.rest.head?.all mayFollow then some (String.ofList name, q) else none

/-- The node whose name is referred to here, and the place after the reference. -/
def reference? (p : Place) : Option (Content × Place) := do
  let (name, q) ← name? p.next
  return (← q.named.lookup name, q)

/-! ### Tags -/

/-- A handle that starts and ends with an exclamation mark, or a single such mark before a blank,
and the place after it. -/
def handle? (p : Place) : Option (String × Place) :=
  let isHandle (c : Char) : Bool := c.isAlphanum || c == '-' || c == '_'
  if !p.has '!' then none
  else if p.next.has ' ' then some ("!", p.next)
  else
    let word := p.next.rest.takeWhile isHandle
    let q := p.next.skip word.length
    if q.has '!' then some ("!" ++ String.ofList word ++ "!", q.next) else none

/-- The rest of a tag's name and the place after it. -/
def tagName? (p : Place) : Option (String × Place) :=
  let written := p.rest.takeWhile Tag.isNameChar
  if written.isEmpty then none
  else (Tag.unescaped? [] written).map fun name =>
    (String.ofList name, p.skip written.length)

/-- A space or line end stands behind a tag. -/
def endsTag (p : Place) : Bool :=
  endsHere p.rest && !p.has '\t'

/-- The full name of the tag here and the place after it. -/
def fullName? (p : Place) : Option (String × Place) :=
  if p.next.has '<' then do
    let (name, q) ← tagName? (p.skip 2)
    if q.has '>' then some (name, q.next) else none
  else if endsHere p.next.rest then some ("!", p.next)
  else do
    let word := p.next.rest.takeWhile fun c => c != ' ' && !isBreak c
    let (handle, q) ← if word.contains '!' then handle? p else some ("!", p.next)
    let start ← (p.handles ++ Tag.handles).lookup handle
    let (name, r) ← tagName? q
    return (start ++ name, r)

/-- The tag here and the place after it. -/
def tag? (p : Place) : Option (Tag × Place) := do
  let (name, q) ← fullName? p
  if endsTag q then some (.ofName name, q) else none

/-! ### Both -/

/-- What stands before a node. -/
structure Properties where
  name : Option String
  tag : Option Tag

namespace Properties

/-- The name and the tag on the line of `p`, in either order, and the place after them. -/
def read? (p : Place) : Option (Properties × Place) :=
  if p.has '&' then do
    let (name, q) ← name? p.next
    let t := q.afterSpaces
    if t.has '!' then
      let (tag, r) ← tag? t
      return (⟨some name, some tag⟩, r)
    else return (⟨some name, none⟩, q)
  else if p.has '!' then do
    let (tag, q) ← tag? p
    let t := q.afterSpaces
    if t.has '&' then
      let (name, r) ← name? t.next
      return (⟨some name, some tag⟩, r)
    else return (⟨none, some tag⟩, q)
  else some (⟨none, none⟩, p)

/-- Nothing stands before the node. -/
def isNone (o : Properties) : Bool :=
  o.name.isNone && o.tag.isNone

/-- Together with the one that is missing, when only that one stands at `p`. -/
def joined? (o : Properties) (p : Place) : Option (Properties × Place) := do
  let (more, q) ← read? p
  match o, more with
  | ⟨some name, none⟩, ⟨none, some tag⟩ => some (⟨some name, some tag⟩, q)
  | ⟨none, some tag⟩, ⟨some name, none⟩ => some (⟨some name, some tag⟩, q)
  | _, _ => none

/-- The place where a node starts. From there on its name is known, and means the node that is
around until the node has ended. A name is given once. -/
def opened? (o : Properties) (p : Place) : Option Place :=
  match o.name with
  | none => some p
  | some name =>
    if (p.named.lookup name).isSome then none
    else some { p with named := (name, .around name) :: p.named }

/-- What a node stands for and the place after it. -/
def close? (o : Properties) (n : Node) (p : Place) : Option (Content × Place) :=
  match o.name with
  | none => some (n.content o.tag, p)
  | some name =>
    let c := (n.apart name).content o.tag
    let named := (name, c) :: p.named
    match p.named.lookup name with
    | none => some (c, { p with named })
    | some (.around _) => some (c, { p with named })
    | some _ => none

end Properties

end CodeAtlas.Yaml
