import CodeAtlas.Embedding.Basic
import CodeAtlas.FilePath
import CodeAtlas.Outline.Record
import CodeAtlas.Slice
import CodeAtlas.Text.Casing
import CodeAtlas.Tree.Project

/-!
What an index keeps and what it answers: the record of an indexed file, embedded chunks, summaries,
hits of a similarity query, statistics of all that an owner has indexed, and the report of a run.
-/

namespace CodeAtlas

open Decode

/-- The record of one indexed file. -/
structure IndexedFile where
  owner : String
  workspace : String
  path : String
  relativePath : String
  name : String
  extension : String
  language : Language
  content : String
  contentHash : String
  size : Int := 0
  lineCount : Int := 0
  symbols : List Symbol := []
  functions : List FunctionSpan := []
  classes : List ClassSpan := []
  imports : List ImportRef := []
  exports : List String := []
  dependencies : List Dependency := []
  complexity : Complexity := {}
  findings : Findings := {}
  modifiedAt : Option Timestamp := none
  indexedAt : Timestamp
  generation : Int := 0

namespace IndexedFile

/-- The record of a file with an outline. A path outside the workspace is relative by its name
alone. -/
def ofOutline (owner : String) (workspace path : FilePath) (content contentHash : String)
    (outline : Outline) (modifiedAt : Option Timestamp) (indexedAt : Timestamp) : IndexedFile :=
  { owner
    workspace := workspace.text
    path := path.text
    relativePath := ((workspace.relativeTo? path).map FilePath.text).getD path.name
    name := path.name
    extension := String.ofList (Text.dropLeading '.' (Text.lower path.suffix).toList)
    language := outline.language
    content
    contentHash
    size := outline.sizeBytes
    lineCount := outline.lineCount
    symbols := outline.symbols
    functions := outline.functions
    classes := outline.classes
    imports := outline.imports
    exports := outline.exports
    dependencies := outline.dependencies
    complexity := outline.complexity
    findings := outline.findings
    modifiedAt
    indexedAt }

/-- The content differs from the one with the given hash. -/
def isStale (f : IndexedFile) (currentHash : String) : Bool :=
  f.contentHash != currentHash

/-- The names bound by the imports, each once. -/
def importedNames (f : IndexedFile) : List String :=
  CodeAtlas.importedNames f.imports

/-- So many functions are named in summaries. -/
def keyFunctionLimit : Int := 3

/-- The names of the functions up to a signed count, in source order. -/
def keyFunctions (f : IndexedFile) (limit : Int) : List String :=
  (Slice.upTo limit f.functions).map (·.name)

/-- The fields of a record. -/
def view (f : IndexedFile) : View :=
  .record "IndexedFile" [("owner_id", .text f.owner), ("workspace_path", .text f.workspace),
    ("file_path", .text f.path), ("relative_path", .text f.relativePath),
    ("file_name", .text f.name), ("file_extension", .text f.extension),
    ("language", f.language.view), ("content", .text f.content),
    ("content_hash", .text f.contentHash), ("file_size", .int f.size),
    ("line_count", .int f.lineCount), ("symbols", .ofList Symbol.view f.symbols),
    ("functions", .ofList FunctionSpan.view f.functions),
    ("classes", .ofList ClassSpan.view f.classes), ("imports", .ofList ImportRef.view f.imports),
    ("exports", .texts f.exports), ("dependencies", .ofList Dependency.view f.dependencies),
    ("complexity", f.complexity.view), ("metadata", f.findings.view),
    ("file_modified_at", .ofOption .time f.modifiedAt), ("indexed_at", .time f.indexedAt),
    ("generation", .int f.generation)]

/-- Reads a record; one without a time of indexing gets `now`. -/
def decode (now : Timestamp) : Value → Checked IndexedFile :=
  record .exchanged fun f =>
    mk <$> f.required "owner_id" Decode.text <*> f.required "workspace_path" Decode.text <*>
      f.required "file_path" Decode.text <*> f.required "relative_path" Decode.text <*>
      f.required "file_name" Decode.text <*> f.required "file_extension" Decode.text <*>
      f.required "language" Language.decode <*> f.required "content" Decode.text <*>
      f.required "content_hash" Decode.text <*> f.withDefault "file_size" 0 Decode.int <*>
      f.withDefault "line_count" 0 Decode.int <*>
      f.withDefault "symbols" [] (Decode.list Symbol.decode) <*>
      f.withDefault "functions" [] (Decode.list FunctionSpan.decode) <*>
      f.withDefault "classes" [] (Decode.list ClassSpan.decode) <*>
      f.withDefault "imports" [] (Decode.list ImportRef.decode) <*>
      f.withDefault "exports" [] (Decode.list Decode.text) <*>
      f.withDefault "dependencies" [] (Decode.list Dependency.decode) <*>
      f.withDefault "complexity" {} Complexity.decode <*>
      f.withDefault "metadata" {} Findings.decode <*>
      f.withDefault "file_modified_at" none (Decode.optional Decode.time) <*>
      f.withDefault "indexed_at" now Decode.time <*> f.withDefault "generation" 0 Decode.int

end IndexedFile

/-- A chunk with its embedding. -/
structure IndexedChunk where
  kind : ChunkKind
  name : String
  startLine : Int
  endLine : Int
  content : String
  contentHash : String
  embedding : Embedding
  signals : ChunkSignals := {}

namespace IndexedChunk

/-- A draft once it is embedded. -/
def ofDraft (d : ChunkDraft) (embedding : Embedding) : IndexedChunk :=
  ⟨d.kind, d.name, d.startLine, d.endLine, d.content, d.contentHash, embedding, d.signals⟩

/-- The fields of a chunk. -/
def view (c : IndexedChunk) : View :=
  .record "CodeChunk" [("chunk_type", c.kind.view), ("name", .text c.name),
    ("start_line", .int c.startLine), ("end_line", .int c.endLine), ("content", .text c.content),
    ("content_hash", .text c.contentHash), ("embedding", c.embedding.view),
    ("metadata", c.signals.view)]

/-- Reads a chunk. -/
def decode : Value → Checked IndexedChunk :=
  record .exchanged fun f =>
    mk <$> f.required "chunk_type" ChunkKind.decode <*> f.required "name" Decode.text <*>
      f.required "start_line" Decode.int <*> f.required "end_line" Decode.int <*>
      f.required "content" Decode.text <*> f.required "content_hash" Decode.text <*>
      f.required "embedding" Embedding.decode <*> f.withDefault "metadata" {} ChunkSignals.decode

end IndexedChunk

/-- What a write did to a file. -/
inductive WriteOutcome where
  | created
  | updated
  /-- The stored content is the same: nothing was written. -/
  | unchanged
  deriving DecidableEq

/-- The word for an outcome. -/
def WriteOutcome.word : WriteOutcome → String
  | .created => "created"
  | .updated => "updated"
  | .unchanged => "unchanged"

/-- Which chunks a similarity query looks at. An absent or empty part does not restrict. -/
structure SimilarFilter where
  workspace : Option String := none
  language : Option Language := none
  kind : Option ChunkKind := none
  /-- A file, by its absolute or relative path, whose chunks are left out. -/
  excludedFile : Option String := none
  model : Option String := none

namespace SimilarFilter

/-- The fields of a filter. -/
def view (f : SimilarFilter) : View :=
  .record "SimilarityFilters" [("workspace_path", .ofOption .text f.workspace),
    ("language", .ofOption Language.view f.language),
    ("chunk_type", .ofOption ChunkKind.view f.kind),
    ("exclude_file", .ofOption .text f.excludedFile), ("embedding_model", .ofOption .text f.model)]

/-- Reads a filter. -/
def decode : Value → Checked SimilarFilter :=
  record .exchanged fun f =>
    mk <$> f.withDefault "workspace_path" none (Decode.optional Decode.text) <*>
      f.withDefault "language" none (Decode.optional Language.decode) <*>
      f.withDefault "chunk_type" none (Decode.optional ChunkKind.decode) <*>
      f.withDefault "exclude_file" none (Decode.optional Decode.text) <*>
      f.withDefault "embedding_model" none (Decode.optional Decode.text)

end SimilarFilter

/-- A chunk found by likeness. -/
structure SimilarChunk where
  path : String
  relativePath : String
  workspace : String
  language : Language
  kind : ChunkKind
  name : String
  startLine : Int
  endLine : Int
  content : String
  similarity : Float
  /-- The word for where its vector comes from. -/
  source : String
  signals : ChunkSignals := {}
  indexedAt : Timestamp

namespace SimilarChunk

/-- The fields of a hit. -/
def view (c : SimilarChunk) : View :=
  .record "SimilarChunk" [("file_path", .text c.path), ("relative_path", .text c.relativePath),
    ("workspace_path", .text c.workspace), ("language", c.language.view),
    ("chunk_type", c.kind.view), ("name", .text c.name), ("start_line", .int c.startLine),
    ("end_line", .int c.endLine), ("content", .text c.content), ("similarity", .real c.similarity),
    ("embedding_source", .text c.source), ("metadata", c.signals.view),
    ("indexed_at", .time c.indexedAt)]

/-- Reads a hit. -/
def decode : Value → Checked SimilarChunk :=
  record .exchanged fun f =>
    mk <$> f.required "file_path" Decode.text <*> f.required "relative_path" Decode.text <*>
      f.required "workspace_path" Decode.text <*> f.required "language" Language.decode <*>
      f.required "chunk_type" ChunkKind.decode <*> f.required "name" Decode.text <*>
      f.required "start_line" Decode.int <*> f.required "end_line" Decode.int <*>
      f.required "content" Decode.text <*> f.required "similarity" Decode.real <*>
      f.required "embedding_source" Decode.text <*>
      f.withDefault "metadata" {} ChunkSignals.decode <*> f.required "indexed_at" Decode.time

end SimilarChunk

/-- What statistics and links need of an indexed file. -/
structure FileSummary where
  path : String
  relativePath : String
  workspace : String
  language : Language
  lineCount : Int := 0
  exports : List String := []
  keyFunctions : List String := []
  framework : Option String := none
  indexedAt : Timestamp

namespace FileSummary

/-- The fields of a summary. -/
def view (s : FileSummary) : View :=
  .record "FileSummary" [("file_path", .text s.path), ("relative_path", .text s.relativePath),
    ("workspace_path", .text s.workspace), ("language", s.language.view),
    ("line_count", .int s.lineCount), ("exports", .texts s.exports),
    ("key_functions", .texts s.keyFunctions), ("framework", .ofOption .text s.framework),
    ("indexed_at", .time s.indexedAt)]

/-- Reads a summary. -/
def decode : Value → Checked FileSummary :=
  record .exchanged fun f =>
    mk <$> f.required "file_path" Decode.text <*> f.required "relative_path" Decode.text <*>
      f.required "workspace_path" Decode.text <*> f.required "language" Language.decode <*>
      f.withDefault "line_count" 0 Decode.int <*>
      f.withDefault "exports" [] (Decode.list Decode.text) <*>
      f.withDefault "key_functions" [] (Decode.list Decode.text) <*>
      f.withDefault "framework" none (Decode.optional Decode.text) <*>
      f.required "indexed_at" Decode.time

end FileSummary

/-- The files of one language. -/
structure LanguageShare where
  /-- The word for the language. -/
  language : String
  fileCount : Int
  averageLines : Float

namespace LanguageShare

/-- The fields of a share. -/
def view (s : LanguageShare) : View :=
  .record "LanguageStat" [("language", .text s.language), ("file_count", .int s.fileCount),
    ("average_lines", .real s.averageLines)]

/-- Reads a share. -/
def decode : Value → Checked LanguageShare :=
  record .exchanged fun f =>
    mk <$> f.required "language" Decode.text <*> f.required "file_count" Decode.int <*>
      f.required "average_lines" Decode.real

end LanguageShare

/-- A workspace with the structure saved for it. -/
structure WorkspaceRecord where
  path : String
  structure_ : ProjectStructure := {}
  lastIndexedAt : Option Timestamp := none

namespace WorkspaceRecord

/-- The fields of a workspace. -/
def view (w : WorkspaceRecord) : View :=
  .record "WorkspaceRecord" [("workspace_path", .text w.path), ("structure", w.structure_.view),
    ("last_indexed_at", .ofOption .time w.lastIndexedAt)]

/-- Reads a workspace. -/
def decode : Value → Checked WorkspaceRecord :=
  record .exchanged fun f =>
    mk <$> f.required "workspace_path" Decode.text <*>
      f.withDefault "structure" {} ProjectStructure.decode <*>
      f.withDefault "last_indexed_at" none (Decode.optional Decode.time)

end WorkspaceRecord

/-- Everything that an owner has indexed, in numbers. -/
structure IndexStatistics where
  totalFiles : Int := 0
  totalLines : Int := 0
  languages : List LanguageShare := []
  frameworks : List String := []
  workspaces : List WorkspaceRecord := []

namespace IndexStatistics

/-- The fields under a type name. -/
def viewAs (type : String) (s : IndexStatistics) : View :=
  .record type [("total_files", .int s.totalFiles), ("total_lines", .int s.totalLines),
    ("languages", .ofList LanguageShare.view s.languages), ("frameworks", .texts s.frameworks),
    ("workspaces", .ofList WorkspaceRecord.view s.workspaces)]

/-- The fields of the statistics. -/
def view : IndexStatistics → View :=
  viewAs "WorkspaceStatistics"

/-- Reads statistics. -/
def decode : Value → Checked IndexStatistics :=
  record .exchanged fun f =>
    mk <$> f.withDefault "total_files" 0 Decode.int <*> f.withDefault "total_lines" 0 Decode.int <*>
      f.withDefault "languages" [] (Decode.list LanguageShare.decode) <*>
      f.withDefault "frameworks" [] (Decode.list Decode.text) <*>
      f.withDefault "workspaces" [] (Decode.list WorkspaceRecord.decode)

end IndexStatistics

/-- A file that could not be indexed, and why. -/
structure FileError where
  file : String
  error : String

namespace FileError

/-- The fields of an error. -/
def view (e : FileError) : View :=
  .record "IndexingError" [("file", .text e.file), ("error", .text e.error)]

/-- Reads an error. -/
def decode : Value → Checked FileError :=
  record .exchanged fun f =>
    mk <$> f.required "file" Decode.text <*> f.required "error" Decode.text

end FileError

/-- What an indexing run did. -/
structure RunReport where
  processed : Int := 0
  updated : Int := 0
  skipped : Int := 0
  embeddings : Int := 0
  deleted : Int := 0
  cancelled : Bool := false
  errors : List FileError := []

namespace RunReport

/-- The fields of a report. -/
def view (r : RunReport) : View :=
  .record "IndexingStats" [("files_processed", .int r.processed), ("files_updated", .int r.updated),
    ("files_skipped", .int r.skipped), ("embeddings_created", .int r.embeddings),
    ("files_deleted", .int r.deleted), ("cancelled", .bool r.cancelled),
    ("errors", .ofList FileError.view r.errors)]

/-- Reads a report. -/
def decode : Value → Checked RunReport :=
  record .exchanged fun f =>
    mk <$> f.withDefault "files_processed" 0 Decode.int <*>
      f.withDefault "files_updated" 0 Decode.int <*> f.withDefault "files_skipped" 0 Decode.int <*>
      f.withDefault "embeddings_created" 0 Decode.int <*>
      f.withDefault "files_deleted" 0 Decode.int <*> f.withDefault "cancelled" false Decode.bool <*>
      f.withDefault "errors" [] (Decode.list FileError.decode)

end RunReport

end CodeAtlas
