import CodeAtlas.Text.Utf8
import CodeAtlas.Value.Json

/-!
Tags: what sort of content a node is said to have. A tag is known by its full name; most sorts are
named under one common start. In a document a tag is written as a handle, which stands for the start
of the name, and the rest of the name, where a percent sign and two digits stand for a byte.
-/

namespace CodeAtlas.Yaml

/-- A sort of content that a tag can ask for. -/
inductive Tag where
  /-- What the text tells, even that of a scalar that is not plain. -/
  | unspecific
  | null
  | bool
  | int
  | real
  | time
  | text
  | binary
  | list
  | mapping
  /-- The keys of a mapping. -/
  | members
  /-- A list of mappings with one entry each. -/
  | pairs
  /-- A sort that is not known. -/
  | unknown

namespace Tag

/-- The start of the names of the usual sorts. -/
def usual : String :=
  "tag:yaml.org,2002:"

/-- The usual sorts by what follows that start. -/
def sorts : List (String × Tag) := [
  ("null", null), ("bool", bool), ("int", int), ("float", real), ("timestamp", time),
  ("str", text), ("binary", binary), ("seq", list), ("map", mapping), ("set", members),
  ("omap", pairs), ("pairs", pairs)]

/-- The sort that a full name stands for. -/
def ofName (name : String) : Tag :=
  if name == "!" then unspecific
  else match Text.dropStart? usual.toList name.toList with
    | some sort => (sorts.lookup (String.ofList sort)).getD unknown
    | none => unknown

/-- What the handles stand for that a document need not name. -/
def handles : List (String × String) :=
  [("!", "!"), ("!!", usual)]

/-- A character of a written name. -/
def isNameChar (c : Char) : Bool :=
  c.isAlphanum || "-;/?:@&=+$,_.!~*'()[]%".toList.contains c

/-- The name that is written with some bytes by their digits. Bytes that stand together are UTF-8;
`held` are those just before, the last one first. -/
def unescaped? (held : List UInt8) : List Char → Option (List Char)
  | '%' :: a :: b :: rest => do
    let high ← Json.hexDigit? a
    let low ← Json.hexDigit? b
    unescaped? (UInt8.ofNat (high * 16 + low) :: held) rest
  | c :: rest =>
    if c == '%' then none
    else do
      let before ← (Text.ofUtf8 held.reverse).toOption
      let after ← unescaped? [] rest
      return before ++ c :: after
  | [] => (Text.ofUtf8 held.reverse).toOption

end Tag

end CodeAtlas.Yaml
