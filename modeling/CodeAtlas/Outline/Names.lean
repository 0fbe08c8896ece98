import CodeAtlas.Outline.Grammar
import CodeAtlas.Text.Basic

/-!
Imported and exported names. A name list is cut at commas, brackets counting as commas; comments are
dropped, a namespace import binds nothing, and of a renamed clause one side is taken.
-/

namespace CodeAtlas

namespace Names

open Pattern Text Grammar

/-- A line comment, in either spelling. -/
def comment : Pattern :=
  either (text "#") (text "//") ++ run0 (· != '\n')

/-- A bracket of a name list. -/
def isBracket (c : Char) : Bool :=
  c == '\x7b' || c == '\x7d' || c == '(' || c == ')'

/-- The first part of a text, cut at the first occurrence of `sep`, and the rest. -/
def cut? (sep text : List Char) : Option (List Char × List Char) :=
  (Text.find? sep text).map fun i => (text.take i, text.drop (i + sep.length))

/-- The name a clause stands for: the bound one when `keepAlias`, otherwise the one before `as`. -/
def clauseName (keepAlias : Bool) (clause : List Char) : List Char :=
  let clause := (dropStart? "type ".toList clause).getD clause
  match cut? " as ".toList clause with
  | some (source, bound) => trim (if keepAlias then bound else source)
  | none => trim clause

/-- The names of a list, each once, in order. -/
def split (raw : List Char) (keepAlias : Bool) : List String :=
  let plain := (comment.replaceAll (fun _ => []) raw).map fun c => if isBracket c then ',' else c
  let clauses := (splitOn ',' plain).map fun part => joinWith [' '] (words part)
  let named := clauses.filter fun clause => !clause.isEmpty && clause.head? != some '*'
  let names := (named.map (clauseName keepAlias)).filter ident.matchesAll
  distinct (names.map String.ofList)

/-- The last segment of a module path, outer backslashes aside. -/
def lastSegment (module : List Char) : List Char :=
  let inner := dropTrailing '\\' (dropLeading '\\' module)
  (splitBy (fun c => c == '.' || c == '\\') inner).getLast?.getD []

/-- A double-quoted text. -/
def doubleQuoted : Pattern :=
  text "\"" ++ capture "content" (run1 (· != '\x22')) ++ text "\""

/-- The imports that one match of an import pattern stands for. -/
def importsOf (g : Grammar) (starts : List Nat) (m : Match) : List ImportRef :=
  let line := lineOf starts m.offset
  let text? (name : String) := m.groupText? name
  match (text? "modules").filter (!·.isEmpty) with
  | some modules =>
    (splitOn ',' modules).filterMap fun part =>
      (words part).head?.map fun module => ⟨String.ofList module, [], line⟩
  | none =>
    match m.group? "block" with
    | some block =>
      (doubleQuoted.findAll block.text).map fun quoted =>
        ⟨String.ofList ((quoted.groupText? "content").getD []), [],
          lineOf starts (block.start.offset + quoted.offset)⟩
    | none =>
      let module := (text? "module").getD []
      let names := match (text? "names").filter (!·.isEmpty) with
        | some names => split names false
        | none => if g.bindsLastSegment then [String.ofList (lastSegment module)] else []
      [⟨String.ofList module, names, line⟩]

/-- The imports of a content, by line. -/
def imports (g : Grammar) (content : List Char) (starts : List Nat) : List ImportRef :=
  (g.imports.flatMap fun pattern =>
    (pattern.findAll content).flatMap (importsOf g starts)).mergeSort fun a b => a.line ≤ b.line

/-- Records a name at a line; of several lines the least is kept. -/
def noteLine (seen : List (String × Nat)) (name : String) (line : Nat) : List (String × Nat) :=
  if seen.any (·.1 == name) then
    seen.map fun (known, first) => if known == name then (known, min first line) else (known, first)
  else seen ++ [(name, line)]

/-- The exported names with their first lines, by line. -/
def exports (g : Grammar) (content : List Char) (starts : List Nat) : List (String × Nat) :=
  let found := g.exports.flatMap fun pattern =>
    (pattern.findAll content).flatMap fun m =>
      let line := lineOf starts m.offset
      let names := match (m.groupText? "name").filter (!·.isEmpty) with
        | some name => [String.ofList name]
        | none => split ((m.groupText? "names").getD []) true
      names.map fun name => (name, line)
  (found.foldl (fun seen (name, line) => noteLine seen name line) []).mergeSort
    fun a b => a.2 ≤ b.2

end Names

end CodeAtlas
