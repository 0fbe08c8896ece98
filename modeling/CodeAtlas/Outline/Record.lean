import CodeAtlas.Outline.Chunk
import CodeAtlas.Value.Checked
import CodeAtlas.Value.View

/-!
Outlines and chunk drafts as records: how each is shown field by field, and how it is read back.
-/

namespace CodeAtlas

open Decode

/-- A member of an enumeration whose names are its words in capitals. -/
def View.ofWord (type word : String) : View :=
  .member type word.toUpper word

namespace Language

/-- A language as a member. -/
def view (l : Language) : View :=
  .ofWord "Language" l.id

/-- Reads a language by its word. -/
def decode : Value → Checked Language :=
  Decode.member all id

end Language

namespace SymbolKind

/-- A kind of symbol as a member. -/
def view (k : SymbolKind) : View :=
  .ofWord "SymbolKind" k.word

/-- Reads a kind of symbol by its word. -/
def decode : Value → Checked SymbolKind :=
  Decode.member all word

end SymbolKind

namespace Origin

/-- An origin as a member. -/
def view (o : Origin) : View :=
  .ofWord "DependencyType" o.word

/-- Reads an origin by its word. -/
def decode : Value → Checked Origin :=
  Decode.member all word

end Origin

namespace ChunkKind

/-- A kind of chunk as a member. -/
def view (k : ChunkKind) : View :=
  .ofWord "ChunkType" k.word

/-- Reads a kind of chunk by its word. -/
def decode : Value → Checked ChunkKind :=
  Decode.member all word

end ChunkKind

namespace Symbol

/-- The fields of a symbol. -/
def view (s : Symbol) : View :=
  .record "Symbol" [("name", .text s.name), ("kind", s.kind.view), ("line", .int s.line)]

/-- Reads a symbol. -/
def decode : Value → Checked Symbol :=
  record .exchanged fun f =>
    mk <$> f.required "name" Decode.text <*> f.required "kind" SymbolKind.decode <*>
      f.required "line" Decode.int

end Symbol

namespace ImportRef

/-- The fields of an import. -/
def view (r : ImportRef) : View :=
  .record "ImportRef" [("module", .text r.module), ("names", .texts r.names), ("line", .int r.line)]

/-- Reads an import. -/
def decode : Value → Checked ImportRef :=
  record .exchanged fun f =>
    mk <$> f.required "module" Decode.text <*>
      f.withDefault "names" [] (Decode.list Decode.text) <*>
      f.required "line" Decode.int

end ImportRef

namespace Dependency

/-- The fields of a dependency. -/
def view (d : Dependency) : View :=
  .record "Dependency" [("module", .text d.module), ("type", d.origin.view), ("line", .int d.line)]

/-- Reads a dependency. -/
def decode : Value → Checked Dependency :=
  record .exchanged fun f =>
    mk <$> f.required "module" Decode.text <*> f.required "type" Origin.decode <*>
      f.required "line" Decode.int

end Dependency

namespace FunctionSpan

/-- The fields of a function. -/
def view (s : FunctionSpan) : View :=
  .record "FunctionInfo" [("name", .text s.name), ("start_line", .int s.startLine),
    ("end_line", .int s.endLine), ("complexity", .int s.complexity)]

/-- Reads a function. -/
def decode : Value → Checked FunctionSpan :=
  record .exchanged fun f =>
    mk <$> f.required "name" Decode.text <*> f.required "start_line" Decode.int <*>
      f.required "end_line" Decode.int <*> f.withDefault "complexity" 1 Decode.int

end FunctionSpan

namespace ClassSpan

/-- The fields of a class. -/
def view (s : ClassSpan) : View :=
  .record "ClassInfo" [("name", .text s.name), ("start_line", .int s.startLine),
    ("end_line", .int s.endLine), ("methods", .texts s.methods)]

/-- Reads a class. -/
def decode : Value → Checked ClassSpan :=
  record .exchanged fun f =>
    mk <$> f.required "name" Decode.text <*> f.required "start_line" Decode.int <*>
      f.required "end_line" Decode.int <*> f.withDefault "methods" [] (Decode.list Decode.text)

end ClassSpan

namespace Complexity

/-- The fields of the measures. -/
def view (c : Complexity) : View :=
  .record "ComplexityMetrics" [("total_lines", .int c.totalLines), ("code_lines", .int c.codeLines),
    ("comment_lines", .int c.commentLines), ("cyclomatic_complexity", .int c.cyclomatic),
    ("maintainability_index", .real c.maintainability), ("comment_ratio", .real c.commentRatio)]

/-- Reads the measures. -/
def decode : Value → Checked Complexity :=
  record .exchanged fun f =>
    mk <$> f.withDefault "total_lines" 0 Decode.int <*> f.withDefault "code_lines" 0 Decode.int <*>
      f.withDefault "comment_lines" 0 Decode.int <*>
      f.withDefault "cyclomatic_complexity" 1 Decode.int <*>
      f.withDefault "maintainability_index" 100.0 Decode.real <*>
      f.withDefault "comment_ratio" 0.0 Decode.real

end Complexity

namespace Comment

/-- The fields of a comment. -/
def view (c : Comment) : View :=
  .record "Comment" [("content", .text c.content), ("line", .int c.line)]

/-- Reads a comment. -/
def decode : Value → Checked Comment :=
  record .exchanged fun f =>
    mk <$> f.required "content" Decode.text <*> f.required "line" Decode.int

end Comment

namespace Todo

/-- The fields of a to-do. -/
def view (t : Todo) : View :=
  .record "Todo" [("marker", .text t.marker), ("description", .text t.description),
    ("line", .int t.line)]

/-- Reads a to-do. -/
def decode : Value → Checked Todo :=
  record .exchanged fun f =>
    mk <$> f.required "marker" Decode.text <*> f.required "description" Decode.text <*>
      f.required "line" Decode.int

end Todo

namespace Signal

/-- The fields of a signal. -/
def view (s : Signal) : View :=
  .record "PatternHit" [("pattern", .text s.pattern), ("confidence", .ofOption .real s.confidence),
    ("occurrences", .ofOption .int s.occurrences)]

/-- Reads a signal. -/
def decode : Value → Checked Signal :=
  record .exchanged fun f =>
    mk <$> f.required "pattern" Decode.text <*>
      f.withDefault "confidence" none (Decode.optional Decode.real) <*>
      f.withDefault "occurrences" none (Decode.optional Decode.int)

end Signal

namespace Endpoint

/-- The fields of an endpoint. -/
def view (e : Endpoint) : View :=
  .record "ApiEndpoint" [("method", .text e.method), ("path", .text e.path), ("line", .int e.line)]

/-- Reads an endpoint. -/
def decode : Value → Checked Endpoint :=
  record .exchanged fun f =>
    mk <$> f.required "method" Decode.text <*> f.required "path" Decode.text <*>
      f.required "line" Decode.int

end Endpoint

namespace DatabaseQuery

/-- The fields of a query. -/
def view (q : DatabaseQuery) : View :=
  .record "DatabaseQuery" [("query", .text q.query), ("line", .int q.line)]

/-- Reads a query. -/
def decode : Value → Checked DatabaseQuery :=
  record .exchanged fun f =>
    mk <$> f.required "query" Decode.text <*> f.required "line" Decode.int

end DatabaseQuery

namespace Findings

/-- The fields of the findings. -/
def view (s : Findings) : View :=
  .record "FileMetadata" [("framework", .ofOption .text s.framework),
    ("design_patterns", .ofList Signal.view s.design),
    ("security_patterns", .ofList Signal.view s.security),
    ("performance_patterns", .ofList Signal.view s.performance),
    ("diagnostic_patterns", .ofList Signal.view s.diagnostic),
    ("api_endpoints", .ofList Endpoint.view s.endpoints),
    ("database_queries", .ofList DatabaseQuery.view s.queries),
    ("todos", .ofList Todo.view s.todos)]

/-- Reads findings. -/
def decode : Value → Checked Findings :=
  record .exchanged fun f =>
    mk <$> f.withDefault "framework" none (Decode.optional Decode.text) <*>
      f.withDefault "design_patterns" [] (Decode.list Signal.decode) <*>
      f.withDefault "security_patterns" [] (Decode.list Signal.decode) <*>
      f.withDefault "performance_patterns" [] (Decode.list Signal.decode) <*>
      f.withDefault "diagnostic_patterns" [] (Decode.list Signal.decode) <*>
      f.withDefault "api_endpoints" [] (Decode.list Endpoint.decode) <*>
      f.withDefault "database_queries" [] (Decode.list DatabaseQuery.decode) <*>
      f.withDefault "todos" [] (Decode.list Todo.decode)

end Findings

namespace Outline

/-- The fields of an outline. -/
def view (o : Outline) : View :=
  .record "AnalysisResult" [("file_path", .text o.filePath), ("language", o.language.view),
    ("line_count", .int o.lineCount), ("size_bytes", .int o.sizeBytes),
    ("symbols", .ofList Symbol.view o.symbols), ("imports", .ofList ImportRef.view o.imports),
    ("exports", .texts o.exports), ("dependencies", .ofList Dependency.view o.dependencies),
    ("functions", .ofList FunctionSpan.view o.functions),
    ("classes", .ofList ClassSpan.view o.classes),
    ("comments", .ofList Comment.view o.comments), ("complexity", o.complexity.view),
    ("metadata", o.findings.view)]

/-- Reads an outline. -/
def decode : Value → Checked Outline :=
  record .exchanged fun f =>
    mk <$> f.required "file_path" Decode.text <*> f.required "language" Language.decode <*>
      f.withDefault "line_count" 0 Decode.int <*> f.withDefault "size_bytes" 0 Decode.int <*>
      f.withDefault "symbols" [] (Decode.list Symbol.decode) <*>
      f.withDefault "imports" [] (Decode.list ImportRef.decode) <*>
      f.withDefault "exports" [] (Decode.list Decode.text) <*>
      f.withDefault "dependencies" [] (Decode.list Dependency.decode) <*>
      f.withDefault "functions" [] (Decode.list FunctionSpan.decode) <*>
      f.withDefault "classes" [] (Decode.list ClassSpan.decode) <*>
      f.withDefault "comments" [] (Decode.list Comment.decode) <*>
      f.withDefault "complexity" {} Complexity.decode <*>
      f.withDefault "metadata" {} Findings.decode

end Outline

namespace ChunkSignals

/-- The fields of the signals. -/
def view (s : ChunkSignals) : View :=
  .record "ChunkMetadata" [("language", s.language.view), ("complexity", .int s.complexity),
    ("design_patterns", .texts s.designPatterns),
    ("diagnostic_patterns", .texts s.diagnosticPatterns), ("methods", .texts s.methods)]

/-- Reads the signals. -/
def decode : Value → Checked ChunkSignals :=
  record .exchanged fun f =>
    mk <$> f.withDefault "language" .text Language.decode <*>
      f.withDefault "complexity" 1 Decode.int <*>
      f.withDefault "design_patterns" [] (Decode.list Decode.text) <*>
      f.withDefault "diagnostic_patterns" [] (Decode.list Decode.text) <*>
      f.withDefault "methods" [] (Decode.list Decode.text)

end ChunkSignals

namespace ChunkDraft

/-- The fields of a draft. -/
def view (c : ChunkDraft) : View :=
  .record "ChunkDraft" [("chunk_type", c.kind.view), ("name", .text c.name),
    ("start_line", .int c.startLine), ("end_line", .int c.endLine), ("content", .text c.content),
    ("content_hash", .text c.contentHash), ("embedding_text", .text c.embeddingText),
    ("metadata", c.signals.view)]

/-- Reads a draft. -/
def decode : Value → Checked ChunkDraft :=
  record .exchanged fun f =>
    mk <$> f.required "chunk_type" ChunkKind.decode <*> f.required "name" Decode.text <*>
      f.required "start_line" Decode.int <*> f.required "end_line" Decode.int <*>
      f.required "content" Decode.text <*> f.required "content_hash" Decode.text <*>
      f.required "embedding_text" Decode.text <*> f.withDefault "metadata" {} ChunkSignals.decode

end ChunkDraft

namespace OutlineConfig

/-- The fields of the configuration. -/
def view (c : OutlineConfig) : View :=
  .record "AnalyzerConfig" [("design_pattern_min_hits", .int c.designMinHits),
    ("security_min_occurrences", .int c.securityMin),
    ("performance_min_occurrences", .int c.performanceMin),
    ("diagnostic_min_occurrences", .int c.diagnosticMin),
    ("file_chunk_chars", .int c.fileChunkChars), ("max_chunk_chars", .int c.maxChunkChars)]

/-- Reads the configuration; every number is at least one. -/
def decode : Value → Checked OutlineConfig :=
  record .plain fun f =>
    mk <$> f.withDefault "design_pattern_min_hits" 2 (natFrom 1) <*>
      f.withDefault "security_min_occurrences" 1 (natFrom 1) <*>
      f.withDefault "performance_min_occurrences" 1 (natFrom 1) <*>
      f.withDefault "diagnostic_min_occurrences" 1 (natFrom 1) <*>
      f.withDefault "file_chunk_chars" 1000 (natFrom 1) <*>
      f.withDefault "max_chunk_chars" 4000 (natFrom 1)

end OutlineConfig

end CodeAtlas
