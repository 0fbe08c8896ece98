import CodeAtlas.Text.Basic

/-!
Slash-separated paths. Empty and `.` components vanish; exactly two leading slashes are a root of
their own; the name is the last component and the suffix its last dotted part, unless the dot is the
first or last character.
-/

namespace CodeAtlas

/-- A path in normal form. -/
structure FilePath where
  /-- `""`, `"/"` or `"//"`. -/
  root : String
  parts : List String
  deriving DecidableEq

namespace FilePath

/-- Reads a path. -/
def parse (s : String) : FilePath :=
  let chars := s.toList
  let slashes := (chars.takeWhile (· == '/')).length
  let root := if slashes == 0 then "" else if slashes == 2 then "//" else "/"
  let pieces := (Text.splitOn '/' chars).map String.ofList
  ⟨root, pieces.filter fun piece => piece != "" && piece != "."⟩

/-- Writes a path; the empty one is `.`. -/
def text (p : FilePath) : String :=
  if p.root == "" && p.parts.isEmpty then "."
  else p.root ++ "/".intercalate p.parts

/-- The last component, empty when there is none. -/
def name (p : FilePath) : String :=
  p.parts.getLast?.getD ""

/-- The last dotted part of a file name, with its dot. -/
def suffixOfName (name : String) : String :=
  let chars := name.toList
  let tail := Text.afterLast '.' chars
  if tail.length + 1 < chars.length && !tail.isEmpty then String.ofList ('.' :: tail) else ""

/-- The suffix of the name. -/
def suffix (p : FilePath) : String :=
  suffixOfName p.name

/-- The path below another one. -/
def join (p : FilePath) (s : String) : FilePath :=
  let q := parse s
  if q.root == "" then ⟨p.root, p.parts ++ q.parts⟩ else q

/-- The components of `p` after those of `base`, when it lies under it. -/
def relativeTo? (base p : FilePath) : Option FilePath :=
  if base.root == p.root && base.parts.isPrefixOf p.parts then
    some ⟨"", p.parts.drop base.parts.length⟩
  else none

end FilePath

end CodeAtlas
