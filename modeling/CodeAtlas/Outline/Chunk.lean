import CodeAtlas.Digest
import CodeAtlas.Outline.Analysis

/-!
Cutting a file into chunks: one for the whole file, then one per function, then one per class. The
file chunk stores the start of the file and is embedded whole; the others store and embed their
lines, cut to a bound.
-/

namespace CodeAtlas

/-- What a chunk covers. -/
inductive ChunkKind where
  | file
  | function
  | class_
  deriving DecidableEq, Inhabited

/-- The word for a kind of chunk. -/
def ChunkKind.word : ChunkKind → String
  | .file => "file"
  | .function => "function"
  | .class_ => "class"

/-- Every kind of chunk. -/
def ChunkKind.all : List ChunkKind :=
  [.file, .function, .class_]

/-- The signals of a chunk that reweighing looks at. -/
structure ChunkSignals where
  language : Language := .text
  complexity : Int := 1
  designPatterns : List String := []
  diagnosticPatterns : List String := []
  methods : List String := []

/-- A chunk before it is embedded. -/
structure ChunkDraft where
  kind : ChunkKind
  name : String
  startLine : Int
  endLine : Int
  content : String
  contentHash : String
  embeddingText : String
  signals : ChunkSignals := {}

namespace ChunkDraft

open Text

/-- The first characters of the given lines. -/
def spanText (config : OutlineConfig) (lines : List (List Char)) (first last : Int) : List Char :=
  (joinWith ['\n'] ((lines.take last.toNat).drop (first - 1).toNat)).take config.maxChunkChars

/-- The signals of a stretch of lines. -/
def spanSignals (config : OutlineConfig) (body : List Char) (language : Language)
    (complexity : Int) : ChunkSignals :=
  { language := language
    complexity := complexity
    designPatterns := (Signals.design body config.designMinHits).map (·.pattern)
    diagnosticPatterns := (Signals.diagnostic body config.diagnosticMin).map (·.pattern) }

/-- The chunk of the whole file. -/
def ofFile (config : OutlineConfig) (path content : String) (lineCount : Nat) (outline : Outline) :
    ChunkDraft :=
  { kind := .file
    name := (FilePath.parse path).name
    startLine := 1
    endLine := lineCount
    content := String.ofList (content.toList.take config.fileChunkChars)
    contentHash := Digest.ofText content
    embeddingText := content
    signals :=
      { language := outline.language
        complexity := outline.complexity.cyclomatic
        designPatterns := outline.findings.design.map (·.pattern)
        diagnosticPatterns := outline.findings.diagnostic.map (·.pattern) } }

/-- The chunk of a stretch of lines, unless it is blank. -/
def ofSpan? (config : OutlineConfig) (lines : List (List Char)) (kind : ChunkKind) (name : String)
    (first last : Int) (signals : List Char → ChunkSignals) : Option ChunkDraft :=
  let chars := spanText config lines first last
  if isBlankText chars then none
  else
    let body := String.ofList chars
    some ⟨kind, name, first, last, body, Digest.ofText body, body, signals chars⟩

/-- The chunks of a file. -/
def ofOutline (config : OutlineConfig) (path content : String) (outline : Outline) :
    List ChunkDraft :=
  let lines := Text.lines content.toList
  let language := outline.language
  let functions := outline.functions.filterMap fun f =>
    ofSpan? config lines .function f.name f.startLine f.endLine fun body =>
      spanSignals config body language f.complexity
  let classes := outline.classes.filterMap fun c =>
    ofSpan? config lines .class_ c.name c.startLine c.endLine fun body =>
      { spanSignals config body language (Complexity.cyclomaticOf body) with methods := c.methods }
  ofFile config path content lines.length outline :: functions ++ classes

end ChunkDraft

end CodeAtlas
