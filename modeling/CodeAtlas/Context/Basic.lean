import CodeAtlas.Links.Basic

/-!
The context assembled for a question: the current file, files related to it, what it depends on,
code like the question, and the project. Scores are of any type.
-/

namespace CodeAtlas

/-- What a question is about. -/
inductive FocusArea where
  | general
  | debugging
  | refactoring
  | testing
  deriving DecidableEq

/-- The word for a focus. -/
def FocusArea.word : FocusArea → String
  | .general => "general"
  | .debugging => "debugging"
  | .refactoring => "refactoring"
  | .testing => "testing"

/-- Every focus. -/
def FocusArea.all : List FocusArea :=
  [.general, .debugging, .refactoring, .testing]

/-- What a caller may say about one question. -/
structure ContextOptions where
  /-- The context is pruned to so many tokens. -/
  maxTokens : Option Nat := none
  focus : FocusArea := .general
  includeTests : Bool := false
  /-- Similar code is looked for in this workspace only. -/
  workspace : Option String := none

/-- The file that the question is asked from. -/
structure CurrentFile where
  path : String
  relativePath : String
  language : Language
  symbols : List Symbol := []
  functions : List FunctionSpan := []
  classes : List ClassSpan := []
  imports : List ImportRef := []
  exports : List String := []
  complexity : Complexity := {}
  findings : Findings := {}
  preview : String := ""

/-- A file that the current one imports from. -/
structure DependencyEntry where
  type : String := "local_dependency"
  module : String
  path : String
  relativePath : String
  exports : List String := []
  keyFunctions : List String := []

/-- A chunk like the question. -/
structure SimilarEntry (κ : Type) where
  path : String
  relativePath : String
  kind : ChunkKind
  name : String
  startLine : Int
  endLine : Int
  content : String
  /-- The likeness itself. -/
  similarity : κ
  /-- The likeness as the focus sees it; it decides the order. -/
  relevance : κ
  source : String
  signals : ChunkSignals := {}

/-- The context of a question. -/
structure Bundle (κ : Type) where
  currentFile : Option CurrentFile := none
  relatedFiles : List RelatedFile := []
  dependencies : List DependencyEntry := []
  similarCode : List (SimilarEntry κ) := []
  project : Option IndexStatistics := none
  totalTokens : Int := 0
  /-- The sections that are empty because finding them failed. -/
  degraded : List String := []

/-- What a context took from the index. -/
structure ContextUse where
  type : String := "intelligent_context"
  files : Int := 0
  dependencies : Int := 0
  tokens : Int := 0

namespace CurrentFile

/-- The length of a preview where nothing else is said. -/
def defaultPreviewChars : Int := 500

/-- The first characters of a content, marked when there are more. -/
def previewOf (chars : Int) (content : String) : String :=
  if chars < content.length then String.ofList (Slice.upTo chars content.toList) ++ "..."
  else content

/-- The current file from its record. -/
def ofRecord (previewChars : Int) (f : IndexedFile) : CurrentFile :=
  { path := f.path
    relativePath := f.relativePath
    language := f.language
    symbols := f.symbols
    functions := f.functions
    classes := f.classes
    imports := f.imports
    exports := f.exports
    complexity := f.complexity
    findings := f.findings
    preview := previewOf previewChars f.content }

end CurrentFile

/-- A found chunk before the focus is looked at. -/
def SimilarEntry.ofChunk (c : SimilarChunk) : SimilarEntry Float :=
  { path := c.path
    relativePath := c.relativePath
    kind := c.kind
    name := c.name
    startLine := c.startLine
    endLine := c.endLine
    content := c.content
    similarity := c.similarity
    relevance := c.similarity
    source := c.source
    signals := c.signals }

namespace Bundle

variable {κ : Type}

/-- The files that appear anywhere, each once, in the order of the sections. -/
def files (b : Bundle κ) : List String :=
  distinct ((b.currentFile.map (·.path)).toList ++ b.relatedFiles.map (·.path) ++
    b.dependencies.map (·.path) ++ b.similarCode.map (·.path))

/-- What the context took from the index. -/
def use (b : Bundle κ) : ContextUse :=
  { files := b.files.length, dependencies := b.dependencies.length, tokens := b.totalTokens }

end Bundle

end CodeAtlas
