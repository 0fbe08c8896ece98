import CodeAtlas.Text.Utf8
import CodeAtlas.Tree.Basic
import CodeAtlas.Tree.Glob

/-!
Ignore rules. A line names directories when it ends in a slash, is anchored at the root when it
starts with one, speaks of whole paths when it holds a slash or two stars, of file names when it
holds a wildcard, and otherwise of directories and files of that very name. Blank lines and lines
that start with `#` say nothing.
-/

namespace CodeAtlas

/-- Ignore rules. -/
structure IgnoreRules where
  /-- Names of directories; those with a star are globs. -/
  directories : List (List Char) := []
  /-- Globs for file names. -/
  files : List (List Char) := []
  /-- Globs for paths from the root. -/
  paths : List (List Char) := []

namespace IgnoreRules

open Text

/-- With slashes for backslashes. -/
def slashed (path : List Char) : List Char :=
  path.map fun c => if c == '\\' then '/' else c

/-- A line that starts with a slash: the path itself and everything below it. -/
def addAnchored (r : IgnoreRules) (line : List Char) : IgnoreRules :=
  let path := dropLeading '/' line
  { r with paths := r.paths ++ [path, dropTrailing '/' path ++ "/**".toList] }

/-- The rules with one more line. -/
def add (r : IgnoreRules) (line : List Char) : IgnoreRules :=
  let line := trim line
  if line.isEmpty || line.head? == some '#' then r
  else
    let line := slashed line
    if line.head? == some '/' then r.addAnchored line
    else if line.getLast? == some '/' then
      { r with directories := r.directories ++ [dropTrailing '/' line] }
    else if line.contains '/' || occursIn ['*', '*'] line then { r with paths := r.paths ++ [line] }
    else if line.any fun c => c == '*' || c == '?' || c == '[' then
      { r with files := r.files ++ [line] }
    else { r with directories := r.directories ++ [line], files := r.files ++ [line] }

/-- The rules of lines. -/
def ofLines (lines : List (List Char)) : IgnoreRules :=
  lines.foldl add {}

/-- The lines of a file. A carriage return ends a line too. -/
def linesOf (text : List Char) : List (List Char) :=
  splitBy (fun c => c == '\n' || c == '\r') text

/-- The rules of patterns and of a file under the root, when there is one and it is UTF-8. -/
def load (t : Tree) (root : FilePath) (file : String) (patterns : List String) : IgnoreRules :=
  let rules := ofLines (patterns.map String.toList)
  if file.isEmpty then rules
  else match t.read (root.join file) with
    | .error _ => rules
    | .ok (bytes, _) =>
      match ofUtf8 bytes with
      | .error _ => rules
      | .ok text => (linesOf text).foldl add rules

/-- No rule at all. -/
def isEmpty (r : IgnoreRules) : Bool :=
  r.directories.isEmpty && r.files.isEmpty && r.paths.isEmpty

/-- A path satisfies a path rule: as a glob, without its leading `**/`, or as the very directory
before a final `/**`. -/
def matchesPath (path rule : List Char) : Bool :=
  Glob.matchesText rule path ||
  (match dropStart? "**/".toList rule with
    | some rest => Glob.matchesText rest path
    | none => false) ||
  (match dropStart? "**/".toList rule.reverse with
    | some rest => dropTrailing '/' path == rest.reverse
    | none => false)

/-- A directory, given by its path from the root, is left out with everything below it. -/
def ignoresDirectory (r : IgnoreRules) (path : List Char) : Bool :=
  let path := dropTrailing '/' (dropLeading '/' (slashed path))
  let name := afterLast '/' path
  r.directories.contains name ||
  r.directories.any (fun rule => rule.contains '*' && Glob.matchesText rule name) ||
  r.paths.any (matchesPath (path ++ ['/']))

/-- A file, given by its path from the root, is left out. -/
def ignoresFile (r : IgnoreRules) (path : List Char) : Bool :=
  let path := slashed path
  r.files.any (fun rule => Glob.matchesText rule (afterLast '/' path)) ||
  r.paths.any (matchesPath path)

end IgnoreRules

end CodeAtlas
