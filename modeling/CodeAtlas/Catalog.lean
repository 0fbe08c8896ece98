import CodeAtlas.Context.Record
import CodeAtlas.Links.Basic

/-!
The records that are exchanged, by the names of their types: each is read from a value and shown as
a view.
-/

namespace CodeAtlas.Catalog

/-- Reads a record and shows it. -/
def entry (decode : Value → Checked α) (view : α → View) (v : Value) : Checked View :=
  (decode v).map view

/-- Every type of record; a file without a time of indexing gets `now`. -/
def records (now : Timestamp) : List (String × (Value → Checked View)) := [
  ("Symbol", entry Symbol.decode Symbol.view),
  ("ImportRef", entry ImportRef.decode ImportRef.view),
  ("Dependency", entry Dependency.decode Dependency.view),
  ("FunctionInfo", entry FunctionSpan.decode FunctionSpan.view),
  ("ClassInfo", entry ClassSpan.decode ClassSpan.view),
  ("ComplexityMetrics", entry Complexity.decode Complexity.view),
  ("Comment", entry Comment.decode Comment.view),
  ("Todo", entry Todo.decode Todo.view),
  ("PatternHit", entry Signal.decode Signal.view),
  ("ApiEndpoint", entry Endpoint.decode Endpoint.view),
  ("DatabaseQuery", entry DatabaseQuery.decode DatabaseQuery.view),
  ("FileMetadata", entry Findings.decode Findings.view),
  ("AnalysisResult", entry Outline.decode Outline.view),
  ("ChunkMetadata", entry ChunkSignals.decode ChunkSignals.view),
  ("ChunkDraft", entry ChunkDraft.decode ChunkDraft.view),
  ("RemoteEmbedding", entry Embedding.decodeRemote Embedding.view),
  ("FallbackEmbedding", entry Embedding.decodeFallback Embedding.view),
  ("ScanErrorEntry", entry ScanFault.decode ScanFault.view),
  ("ProjectStructure", entry ProjectStructure.decode ProjectStructure.view),
  ("IndexedFile", entry (IndexedFile.decode now) IndexedFile.view),
  ("CodeChunk", entry IndexedChunk.decode IndexedChunk.view),
  ("SimilarityFilters", entry SimilarFilter.decode SimilarFilter.view),
  ("SimilarChunk", entry SimilarChunk.decode SimilarChunk.view),
  ("FileSummary", entry FileSummary.decode FileSummary.view),
  ("IndexingError", entry FileError.decode FileError.view),
  ("IndexingStats", entry RunReport.decode RunReport.view),
  ("LanguageStat", entry LanguageShare.decode LanguageShare.view),
  ("WorkspaceRecord", entry WorkspaceRecord.decode WorkspaceRecord.view),
  ("WorkspaceStatistics", entry IndexStatistics.decode IndexStatistics.view),
  ("DependencyEdge", entry LinkEdge.decode LinkEdge.view),
  ("RelatedFile", entry RelatedFile.decode RelatedFile.view),
  ("RetrievalOptions", entry ContextOptions.decode ContextOptions.view),
  ("CurrentFileContext", entry CurrentFile.decode CurrentFile.view),
  ("DependencyContext", entry DependencyEntry.decode DependencyEntry.view),
  ("SimilarCodeEntry", entry SimilarEntry.decode SimilarEntry.view),
  ("ProjectContext", entry IndexStatistics.decode (IndexStatistics.viewAs "ProjectContext")),
  ("ContextUsed", entry ContextUse.decode ContextUse.view),
  ("ContextBundle", entry Bundle.decode Bundle.view),
  ("GatewayResponse", entry GatewayReply.decode GatewayReply.view),
  ("AskResult", entry Answer.decode Answer.view)]

/-- How a record with a type name is read and shown. -/
def find? (now : Timestamp) (name : String) : Option (Value → Checked View) :=
  (records now).lookup name

/-- Texts in ascending order. -/
def sorted (words : List String) : Value :=
  .texts (words.mergeSort fun a b => decide (a ≤ b))

/-- What a record of a type answers to the questions it has beside its fields; some questions take
arguments. -/
def answers (now : Timestamp) (name : String) (arguments : List Value) (data : Value) :
    List (String × Value) :=
  let ask {α : Type} (record : Checked α) (f : α → List (String × Value)) :=
    (record.toOption.map f).getD []
  match name with
  | "FileMetadata" => ask (Findings.decode data) fun f => [("pattern_names", sorted f.patternNames)]
  | "AnalysisResult" => ask (Outline.decode data) fun o =>
      [("imported_names", .texts (importedNames o.imports)),
        ("local_dependencies", .list (o.localDependencies.map fun d => d.view.exchanged))]
  | "RemoteEmbedding" | "FallbackEmbedding" => ask (Embedding.decode data) fun e =>
      [("is_fallback", .bool e.isFallback)]
  | "IndexedFile" => ask (IndexedFile.decode now data) fun f =>
      let limit := match arguments with
        | .int n :: _ => n
        | _ => IndexedFile.keyFunctionLimit
      let hash := match arguments with
        | .text s :: _ => s
        | _ => ""
      [("imported_names", .texts f.importedNames),
        ("key_functions", .texts (f.keyFunctions limit)), ("is_stale", .bool (f.isStale hash))]
  | "ContextBundle" => ask (Bundle.decode data) fun b =>
      [("files_referenced", .texts b.files), ("context_used", b.use.view.exchanged)]
  | _ => []

end CodeAtlas.Catalog
