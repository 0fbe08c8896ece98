import CodeAtlas.Outline.Record
import CodeAtlas.Tree.Walk

/-!
The configuration of an engine: one section per part, each with its bounds and with the values that
stand when nothing is said.
-/

namespace CodeAtlas

open Decode

/-- How texts are embedded. -/
structure EmbeddingConfig where
  model : Option String
  apiKey : Option String
  baseUrl : Option String
  timeoutSeconds : Option Float
  maxTextChars : Nat
  batchSize : Nat
  cacheTtlSeconds : Float
  cacheSize : Nat
  fallbackDimensions : Nat
  failureThreshold : Nat
  cooldownSeconds : Float

namespace EmbeddingConfig

/-- The fields of the section. -/
def view (c : EmbeddingConfig) : View :=
  .record "EmbeddingConfig" [("model", .ofOption .text c.model),
    ("api_key", .ofOption .text c.apiKey), ("base_url", .ofOption .text c.baseUrl),
    ("timeout_seconds", .ofOption .real c.timeoutSeconds),
    ("max_text_chars", .int c.maxTextChars), ("batch_size", .int c.batchSize),
    ("cache_ttl_seconds", .real c.cacheTtlSeconds), ("cache_size", .int c.cacheSize),
    ("fallback_dimensions", .int c.fallbackDimensions),
    ("failure_threshold", .int c.failureThreshold),
    ("cooldown_seconds", .real c.cooldownSeconds)]

/-- Reads the section. -/
def decode : Value → Checked EmbeddingConfig :=
  record .plain fun f =>
    mk <$> f.withDefault "model" none (Decode.optional Decode.text) <*>
      f.withDefault "api_key" none (Decode.optional Decode.text) <*>
      f.withDefault "base_url" none (Decode.optional Decode.text) <*>
      f.withDefault "timeout_seconds" none (Decode.optional Decode.real) <*>
      f.withDefault "max_text_chars" 8000 (natFrom 1) <*>
      f.withDefault "batch_size" 100 (natFrom 1) <*>
      f.withDefault "cache_ttl_seconds" 86400.0 (realAbove 0) <*>
      f.withDefault "cache_size" 10000 (natFrom 1) <*>
      f.withDefault "fallback_dimensions" 384 (natFrom 256) <*>
      f.withDefault "failure_threshold" 5 (natFrom 1) <*>
      f.withDefault "cooldown_seconds" 60.0 (realFrom 0)

end EmbeddingConfig

/-- How a workspace is indexed. -/
structure IndexingConfig where
  concurrency : Nat
  fileTimeoutSeconds : Float

namespace IndexingConfig

/-- The fields of the section. -/
def view (c : IndexingConfig) : View :=
  .record "IndexingConfig" [("concurrency", .int c.concurrency),
    ("file_timeout_seconds", .real c.fileTimeoutSeconds)]

/-- Reads the section. -/
def decode : Value → Checked IndexingConfig :=
  record .plain fun f =>
    mk <$> f.withDefault "concurrency" 4 (natFrom 1) <*>
      f.withDefault "file_timeout_seconds" 120.0 (realAbove 0)

end IndexingConfig

/-- How context is retrieved. -/
structure RetrievalConfig where
  defaultMaxTokens : Nat
  charsPerToken : Nat
  similarTopK : Nat
  minSimilarity : Float
  fallbackWeight : Float
  maxRelatedFiles : Nat
  maxCandidatesPerSymbol : Nat
  keyFunctionsPerDependency : Nat
  contentPreviewChars : Nat
  stepTimeoutSeconds : Float
  /-- The share of a step that the embedding of the query may take. -/
  queryEmbeddingTimeoutRatio : Float
  fileContextTtlSeconds : Float
  projectContextTtlSeconds : Float
  dependencyCacheTtlSeconds : Float
  focusBoost : Float

namespace RetrievalConfig

/-- The fields of the section. -/
def view (c : RetrievalConfig) : View :=
  .record "RetrievalConfig" [("default_max_tokens", .int c.defaultMaxTokens),
    ("chars_per_token", .int c.charsPerToken), ("similar_top_k", .int c.similarTopK),
    ("min_similarity", .real c.minSimilarity), ("fallback_weight", .real c.fallbackWeight),
    ("max_related_files", .int c.maxRelatedFiles),
    ("max_candidates_per_symbol", .int c.maxCandidatesPerSymbol),
    ("key_functions_per_dependency", .int c.keyFunctionsPerDependency),
    ("content_preview_chars", .int c.contentPreviewChars),
    ("step_timeout_seconds", .real c.stepTimeoutSeconds),
    ("query_embedding_timeout_ratio", .real c.queryEmbeddingTimeoutRatio),
    ("file_context_ttl_seconds", .real c.fileContextTtlSeconds),
    ("project_context_ttl_seconds", .real c.projectContextTtlSeconds),
    ("dependency_cache_ttl_seconds", .real c.dependencyCacheTtlSeconds),
    ("focus_boost", .real c.focusBoost)]

/-- Reads the section. -/
def decode : Value → Checked RetrievalConfig :=
  record .plain fun f =>
    mk <$> f.withDefault "default_max_tokens" 8000 (natFrom 1) <*>
      f.withDefault "chars_per_token" 4 (natFrom 1) <*>
      f.withDefault "similar_top_k" 10 (natFrom 1) <*>
      f.withDefault "min_similarity" 0.0 (realBetween (-1) 1) <*>
      f.withDefault "fallback_weight" 1.0 (realBetween 0 1) <*>
      f.withDefault "max_related_files" 10 (natFrom 0) <*>
      f.withDefault "max_candidates_per_symbol" 3 (natFrom 1) <*>
      f.withDefault "key_functions_per_dependency" 3 (natFrom 0) <*>
      f.withDefault "content_preview_chars" 500 (natFrom 0) <*>
      f.withDefault "step_timeout_seconds" 10.0 (realAbove 0) <*>
      f.withDefault "query_embedding_timeout_ratio" 0.5 (realWithin 0 1) <*>
      f.withDefault "file_context_ttl_seconds" 300.0 (realAbove 0) <*>
      f.withDefault "project_context_ttl_seconds" 1800.0 (realAbove 0) <*>
      f.withDefault "dependency_cache_ttl_seconds" 3600.0 (realAbove 0) <*>
      f.withDefault "focus_boost" 1.25 (realFrom 1)

end RetrievalConfig

/-- The configuration of an engine. -/
structure EngineConfig where
  scanner : ScanConfig
  analyzer : OutlineConfig
  embeddings : EmbeddingConfig
  indexing : IndexingConfig
  retrieval : RetrievalConfig

namespace EngineConfig

/-- The sections. -/
def view (c : EngineConfig) : View :=
  .record "EngineConfig" [("scanner", c.scanner.view), ("analyzer", c.analyzer.view),
    ("embeddings", c.embeddings.view), ("indexing", c.indexing.view),
    ("retrieval", c.retrieval.view)]

/-- A section; one that is not there is read as an empty one. -/
def sectionOf (f : Fields) (name : String) (decode : Value → Checked α) : Checked α :=
  match f.find? name with
  | some (_, v) => (decode v).under (.field name)
  | none => decode (.object [])

/-- Reads a configuration. -/
def decode : Value → Checked EngineConfig :=
  record .plain fun f =>
    mk <$> sectionOf f "scanner" ScanConfig.decode <*>
      sectionOf f "analyzer" OutlineConfig.decode <*>
      sectionOf f "embeddings" EmbeddingConfig.decode <*>
      sectionOf f "indexing" IndexingConfig.decode <*>
      sectionOf f "retrieval" RetrievalConfig.decode

mutual

/-- The value with all keys underscored; of keys that become equal the last one wins. -/
def underscored : Value → Value
  | .object entries => .object (Value.ofEntries (underscoredEntries entries))
  | .list items => .list (underscoredItems items)
  | v => v

/-- Items with all keys underscored. -/
def underscoredItems : List Value → List Value
  | [] => []
  | v :: rest => underscored v :: underscoredItems rest

/-- Entries with all keys underscored. -/
def underscoredEntries : List (String × Value) → List (String × Value)
  | [] => []
  | (key, v) :: rest => (Naming.toSnakeCase key, underscored v) :: underscoredEntries rest

end

/-- Reads a configuration with keys in either spelling. -/
def decodeEither (v : Value) : Checked EngineConfig :=
  decode (underscored v)

end EngineConfig

end CodeAtlas
