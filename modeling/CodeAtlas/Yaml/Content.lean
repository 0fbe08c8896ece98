import CodeAtlas.Number.Shortest
import CodeAtlas.Yaml.Literal
import CodeAtlas.Yaml.Tag

/-!
What the nodes of a document stand for. A node is a scalar, a list or a mapping; a tag may say of
what sort its content is. Without a tag a plain scalar tells its sort by its text, and every other
scalar is a text. Two plain scalars mean something as a key only.

A document is read as a whole before it is asked for its value. Lists and mappings are then gone
into level by level, so that of several faults the one nearest to the root counts, and the first
among those at one depth. A list or mapping may refer to itself from within; what takes its parts
one by one, down to the last, comes to no end there.
-/

namespace CodeAtlas.Yaml

/-- What a node stands for. -/
inductive Content where
  | scalar (value : Except Fault Value)
  /-- As a key: the entries of another mapping are taken over. -/
  | merge
  /-- As a key: an equals sign. -/
  | equals
  | list (items : List Content)
  /-- What is taken over comes first. -/
  | mapping (entries : List (Content × Content))
  /-- The keys of a mapping, each of them once. -/
  | members (entries : List (Content × Content))
  /-- A key and its value as an item of a list. -/
  | pair (key item : Content)
  /-- The list or mapping of this name, of which it is itself a part. -/
  | around (name : String)
  /-- A list or mapping, by its tag or its entries, that turns out to be none when it is gone into.
  -/
  | misfit

/-- A value, or the fault that stands in its way and how far below the node it lies. -/
inductive Reading (α : Type) where
  | ok (a : α)
  | bad (depth : Nat) (fault : Fault)

namespace Reading

variable {α β γ : Type}

/-- A function of what was read. -/
def map (f : α → β) : Reading α → Reading β
  | ok a => ok (f a)
  | bad depth fault => bad depth fault

/-- Joins two readings; of two faults the nearer one counts, and the first of equally near ones. -/
def join (f : α → β → γ) : Reading α → Reading β → Reading γ
  | ok a, ok b => ok (f a b)
  | ok _, bad depth fault => bad depth fault
  | bad depth fault, ok _ => bad depth fault
  | bad depth fault, bad depth' fault' =>
    if depth' < depth then bad depth' fault' else bad depth fault

/-- The same, one level further down. -/
def below : Reading α → Reading α
  | ok a => ok a
  | bad depth fault => bad (depth + 1) fault

/-- What was read. -/
def result : Reading α → Except Fault α
  | ok a => .ok a
  | bad _ fault => .error fault

end Reading

namespace Content

/-- A node that nothing is written for. -/
def empty : Content :=
  scalar (.ok .null)

/-- The text of a key: numbers and words of other sorts count by their text. -/
def keyText : Value → String
  | .text s => s
  | .time s => s
  | .null => "None"
  | .bool b => if b then "True" else "False"
  | .int n => toString n
  | .real x => Number.plain.shortest x
  | .bytes _ => ""
  | .list _ => ""
  | .object _ => ""

/-- The value of content as a key; a list or mapping is none. -/
def keyValue : Content → Reading Value
  | scalar (.ok v) => .ok v
  | scalar (.error fault) => .bad 0 fault
  | equals => .ok (.text "=")
  | merge => .bad 0 .unfit
  | list _ => .bad 0 .unfit
  | mapping _ => .bad 0 .unfit
  | members _ => .bad 0 .unfit
  | pair _ _ => .bad 0 .unfit
  | around _ => .bad 0 .unfit
  | misfit => .bad 0 .unfit

mutual

/-- The value of content, without what leads back into it. -/
def value : Content → Reading Value
  | scalar (.ok v) => .ok v
  | scalar (.error fault) => .bad 0 fault
  | merge => .bad 0 .unfit
  | equals => .bad 0 .unfit
  | list items => (values items).map .list
  | mapping entries => (fields entries).map fun fields =>
    .object (Value.ofEntries (fields.map fun (k, v) => (keyText k, v)))
  | members entries => (fields entries).map fun fields =>
    .list ((fields.map (·.1)).eraseDupsBy Value.same)
  | pair k c => (value k).join (fun k v => .list [k, v]) (value c)
  | around _ => .ok .null
  | misfit => .bad 1 .unfit

/-- The values of items. -/
def values : List Content → Reading (List Value)
  | [] => .ok []
  | c :: rest => (value c).below.join List.cons (values rest)

/-- The keys and values of entries. -/
def fields : List (Content × Content) → Reading (List (Value × Value))
  | [] => .ok []
  | (k, c) :: rest =>
    ((keyValue k).below.join Prod.mk (value c).below).join List.cons (fields rest)

end

/-- A whole number is written out as a key up to so many digits. -/
def keyFault? : Value → Option Fault
  | .int n => if Number.tenPow Literal.maxDigits ≤ n.natAbs then some .longKey else none
  | _ => none

mutual

/-- What is met first when the keys of content are written out at every depth. Pairs and the members
of a set are not gone into. -/
def obstacle? : Content → Option Fault
  | around _ => some .endless
  | list items => itemsObstacle? items
  | mapping entries =>
    let found := obstacles entries
    ((found.map (·.1)).eraseDupsBy Value.same).findSome? fun key =>
      (found.reverse.find? fun e => key.same e.1).bind (·.2)
  | _ => none

/-- The first obstacle among items. -/
def itemsObstacle? : List Content → Option Fault
  | [] => none
  | c :: rest => (obstacle? c).or (itemsObstacle? rest)

/-- The obstacle of each entry; of entries with one key the last will count. -/
def obstacles : List (Content × Content) → List (Value × Option Fault)
  | [] => []
  | (k, c) :: rest =>
    match keyValue k with
    | .ok key => (key, (keyFault? key).or (obstacle? c)) :: obstacles rest
    | .bad _ _ => obstacles rest

end

/-- The value of a document. The keys of a mapping are written out, those of another document are
not. -/
def read (c : Content) : Except Fault Value :=
  match c.value.result, c.obstacle? with
  | .ok (.object _), some fault => .error fault
  | result, _ => result

/-- The entries of a mapping. Of one that it is itself a part of, a mapping takes over the entry that
leads back to it. -/
def entries? : Content → Option (List (Content × Content))
  | mapping entries => some entries
  | members entries => some entries
  | around name => some [(empty, around name)]
  | _ => none

/-- The entries that a mapping takes over: those of a mapping, or those of a list of mappings, where
those of the first count most. -/
def taken? : Content → Option (List (Content × Content))
  | list cs => (cs.reverse.mapM entries?).map List.flatten
  | c => c.entries?

/-- Without the mapping of this name: it takes over nothing new from itself. -/
def apart (name : String) (c : Content) : Content :=
  match c with
  | list cs => list (cs.map self)
  | c => self c
where
  /-- An empty mapping for the one of this name. -/
  self : Content → Content
    | around other => if other == name then mapping [] else around other
    | c => c

/-- The mapping of these entries. -/
def ofEntries (entries : List (Content × Content)) : Content :=
  let parts := entries.mapM fun (k, c) =>
    match k with
    | merge => c.taken?.map fun taken => (taken, [])
    | _ => some ([], [(k, c)])
  match parts with
  | some parts => mapping ((parts.map (·.1)).flatten ++ (parts.map (·.2)).flatten)
  | none => misfit

end Content

/-- A node as it is written. -/
inductive Node where
  | scalar (text : String) (isPlain : Bool)
  | list (items : List Content)
  | mapping (entries : List (Content × Content))

namespace Node

/-- A node that nothing is written for. -/
def empty : Node :=
  scalar "" true

/-- What a plain scalar stands for. -/
def plain (s : String) : Content :=
  match Plain.ofText s with
  | .merge => .merge
  | .equals => .equals
  | _ => .scalar (Literal.plain s)

/-- A scalar of the sort that a tag asks for. -/
def scalarOf (tag : Tag) (s : String) : Content :=
  match tag with
  | .unspecific => plain s
  | .null => .scalar (.ok .null)
  | .bool => .scalar ((Literal.bool s).map .bool)
  | .int => .scalar ((Literal.int s.toList).map .int)
  | .real => .scalar ((Literal.real s.toList).map .real)
  | .time => .scalar (Literal.time s)
  | .text => .scalar (.ok (.text s))
  | .binary => .scalar (Literal.binary s.toList)
  | .list => .misfit
  | .mapping => .misfit
  | .members => .misfit
  | .pairs => .misfit
  | .unknown => .scalar (.error .unfit)

/-- The entry of a mapping that has but one, as a pair of key and value. -/
def pair : Content → Content
  | .mapping [(k, c)] => .pair k c
  | _ => .scalar (.error .unfit)

/-- Without what a mapping of this name takes over from itself. -/
def apart (name : String) : Node → Node
  | mapping entries => mapping <| entries.map fun
    | (.merge, c) => (.merge, c.apart name)
    | e => e
  | n => n

/-- What a mapping with a tag of its own stands for. -/
def membersOf : Content → Content
  | .mapping entries => .members entries
  | c => c

/-- What a node stands for under its tag. -/
def content (tag : Option Tag) : Node → Content
  | scalar s isPlain =>
    match tag with
    | some tag => scalarOf tag s
    | none => if isPlain then plain s else .scalar (.ok (.text s))
  | list items =>
    match tag with
    | none => .list items
    | some .unspecific => .list items
    | some .list => .list items
    | some .pairs => .list (items.map pair)
    | some .mapping => .misfit
    | some .members => .misfit
    | some _ => .scalar (.error .unfit)
  | mapping entries =>
    match tag with
    | none => .ofEntries entries
    | some .unspecific => .ofEntries entries
    | some .mapping => .ofEntries entries
    | some .members => membersOf (.ofEntries entries)
    | some .list => .misfit
    | some .pairs => .misfit
    | some _ => .scalar (.error .unfit)

end Node

end CodeAtlas.Yaml
