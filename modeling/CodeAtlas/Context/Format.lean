import CodeAtlas.Context.Basic
import CodeAtlas.Number.Shortest

/-!
The text of a context, as it is put before a question: a labelled block per section that is not
empty.
-/

namespace CodeAtlas.Bundle

/-- So many names are listed. -/
def listLimit : Nat := 10

/-- The first names, separated by commas. -/
def names (items : List String) : String :=
  ", ".intercalate (items.take listLimit)

/-- Lines one below the other. -/
def joinLines (lines : List String) : String :=
  "\n".intercalate lines

/-- A label and the lines below it; nothing without lines. -/
def block (label : String) (lines : List String) : List String :=
  if lines.isEmpty then [] else [joinLines (label :: lines)]

/-- The current file and the start of its content. -/
def currentBlock (c : CurrentFile) : List String :=
  let header := s!"[Current File]: {c.relativePath} ({c.language.id})"
  [if c.preview == "" then header else joinLines [header, c.preview]]

/-- What the current file declares, exports and imports. -/
def symbolBlock (c : CurrentFile) : List String :=
  let line (label : String) (items : List String) : List String :=
    if items.isEmpty then [] else ["  - " ++ label ++ ": " ++ names items]
  block "[Symbols]:" (line "classes" (c.classes.map (·.name)) ++
    line "functions" (c.functions.map (·.name)) ++ line "exports" c.exports ++
    line "imports" (c.imports.map (·.module)))

/-- The line of a related file. -/
def relatedLine (r : RelatedFile) : String :=
  s!"  - {r.relativePath} ({r.direction.word}: {names r.symbols})"

/-- The line of a dependency. -/
def dependencyLine (d : DependencyEntry) : String :=
  s!"  - {d.module} -> {d.relativePath}" ++
    (if d.exports.isEmpty then "" else s!" | exports: {names d.exports}") ++
    (if d.keyFunctions.isEmpty then ""
     else " | key functions: " ++ ", ".intercalate d.keyFunctions)

/-- Scores have two decimals. -/
def score : Number.FixedStyle := ⟨"inf", "nan", true⟩

/-- The lines of a similar chunk: what it is, and its content. -/
def similarLines (e : SimilarEntry Float) : List String :=
  [s!"--- {e.relativePath}:{e.startLine}-{e.endLine} " ++
    s!"({e.kind.word} {e.name}, similarity {Number.fixed score 2 e.similarity})", e.content]

/-- A language with its share of the project. -/
def shareText (s : LanguageShare) : String :=
  s!"{s.language} ({s.fileCount} files, avg {Number.brief.general 6 s.averageLines} lines)"

/-- The line of a workspace. -/
def workspaceLine (w : WorkspaceRecord) : String :=
  let framework := w.structure_.framework.getD ""
  let detail := w.structure_.type ++ (if framework == "" then "" else ", " ++ framework)
  s!"  - workspace {w.path} ({detail})"

/-- The project in numbers; nothing when it has no files. -/
def projectBlock (p : IndexStatistics) : List String :=
  if p.totalFiles == 0 then []
  else
    let languages :=
      if p.languages.isEmpty then []
      else ["  - languages: " ++ ", ".intercalate (p.languages.map shareText)]
    let frameworks :=
      if p.frameworks.isEmpty then [] else ["  - frameworks: " ++ ", ".intercalate p.frameworks]
    [joinLines (["[Project Summary]:", s!"  - {p.totalFiles} files, {p.totalLines} lines"] ++
      languages ++ frameworks ++ p.workspaces.map workspaceLine)]

/-- The blocks of a context in the order of the text. -/
def blocks (b : Bundle Float) : List String :=
  (b.currentFile.map fun c => currentBlock c ++ symbolBlock c).getD [] ++
    block "[Related Files]:" (b.relatedFiles.map relatedLine) ++
    block "[Dependencies]:" (b.dependencies.map dependencyLine) ++
    block "[Similar Code]:" (b.similarCode.flatMap similarLines) ++
    (b.project.map projectBlock).getD []

/-- The text of a context; empty when nothing is in it. -/
def format (b : Bundle Float) : String :=
  "\n\n".intercalate b.blocks

end CodeAtlas.Bundle
