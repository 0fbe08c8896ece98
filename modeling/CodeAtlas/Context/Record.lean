import CodeAtlas.Context.Basic

/-!
The sections of a context as records: how each is shown field by field, and how it is read back.
-/

namespace CodeAtlas

open Decode

namespace FocusArea

/-- A focus as a member. -/
def view (a : FocusArea) : View :=
  .ofWord "FocusArea" a.word

/-- Reads a focus by its word. -/
def decode : Value → Checked FocusArea :=
  Decode.member all word

end FocusArea

namespace ContextOptions

/-- The fields of the options. -/
def view (o : ContextOptions) : View :=
  .record "RetrievalOptions" [("max_tokens", .ofOption (fun n : Nat => .int n) o.maxTokens),
    ("focus_area", o.focus.view), ("include_tests", .bool o.includeTests),
    ("workspace_path", .ofOption .text o.workspace)]

/-- Reads options. -/
def decode : Value → Checked ContextOptions :=
  record .exchanged fun f =>
    mk <$> f.withDefault "max_tokens" none (Decode.optional (natFrom 1)) <*>
      f.withDefault "focus_area" .general FocusArea.decode <*>
      f.withDefault "include_tests" false Decode.bool <*>
      f.withDefault "workspace_path" none (Decode.optional Decode.text)

end ContextOptions

namespace CurrentFile

/-- The fields of the current file. -/
def view (c : CurrentFile) : View :=
  .record "CurrentFileContext" [("file_path", .text c.path),
    ("relative_path", .text c.relativePath),
    ("language", c.language.view), ("symbols", .ofList Symbol.view c.symbols),
    ("functions", .ofList FunctionSpan.view c.functions),
    ("classes", .ofList ClassSpan.view c.classes), ("imports", .ofList ImportRef.view c.imports),
    ("exports", .texts c.exports), ("complexity", c.complexity.view),
    ("metadata", c.findings.view), ("content_preview", .text c.preview)]

/-- Reads the current file. -/
def decode : Value → Checked CurrentFile :=
  record .exchanged fun f =>
    mk <$> f.required "file_path" Decode.text <*> f.required "relative_path" Decode.text <*>
      f.required "language" Language.decode <*>
      f.withDefault "symbols" [] (Decode.list Symbol.decode) <*>
      f.withDefault "functions" [] (Decode.list FunctionSpan.decode) <*>
      f.withDefault "classes" [] (Decode.list ClassSpan.decode) <*>
      f.withDefault "imports" [] (Decode.list ImportRef.decode) <*>
      f.withDefault "exports" [] (Decode.list Decode.text) <*>
      f.withDefault "complexity" {} Complexity.decode <*>
      f.withDefault "metadata" {} Findings.decode <*>
      f.withDefault "content_preview" "" Decode.text

end CurrentFile

namespace DependencyEntry

/-- The fields of a dependency. -/
def view (d : DependencyEntry) : View :=
  .record "DependencyContext" [("type", .text d.type), ("module", .text d.module),
    ("file_path", .text d.path), ("relative_path", .text d.relativePath),
    ("exports", .texts d.exports), ("key_functions", .texts d.keyFunctions)]

/-- Reads a dependency. -/
def decode : Value → Checked DependencyEntry :=
  record .exchanged fun f =>
    mk <$> f.withDefault "type" "local_dependency" Decode.text <*>
      f.required "module" Decode.text <*> f.required "file_path" Decode.text <*>
      f.required "relative_path" Decode.text <*>
      f.withDefault "exports" [] (Decode.list Decode.text) <*>
      f.withDefault "key_functions" [] (Decode.list Decode.text)

end DependencyEntry

namespace SimilarEntry

/-- The fields of a similar chunk. -/
def view (e : SimilarEntry Float) : View :=
  .record "SimilarCodeEntry" [("file_path", .text e.path), ("relative_path", .text e.relativePath),
    ("chunk_type", e.kind.view), ("name", .text e.name), ("start_line", .int e.startLine),
    ("end_line", .int e.endLine), ("content", .text e.content),
    ("similarity_score", .real e.similarity), ("relevance", .real e.relevance),
    ("embedding_source", .text e.source), ("metadata", e.signals.view)]

/-- Reads a similar chunk. -/
def decode : Value → Checked (SimilarEntry Float) :=
  record .exchanged fun f =>
    mk <$> f.required "file_path" Decode.text <*> f.required "relative_path" Decode.text <*>
      f.required "chunk_type" ChunkKind.decode <*> f.required "name" Decode.text <*>
      f.required "start_line" Decode.int <*> f.required "end_line" Decode.int <*>
      f.required "content" Decode.text <*> f.required "similarity_score" Decode.real <*>
      f.required "relevance" Decode.real <*> f.required "embedding_source" Decode.text <*>
      f.withDefault "metadata" {} ChunkSignals.decode

end SimilarEntry

namespace Bundle

/-- The fields of a context. -/
def view (b : Bundle Float) : View :=
  .record "ContextBundle" [("current_file", .ofOption CurrentFile.view b.currentFile),
    ("related_files", .ofList RelatedFile.view b.relatedFiles),
    ("dependencies", .ofList DependencyEntry.view b.dependencies),
    ("similar_code", .ofList SimilarEntry.view b.similarCode),
    ("project_context", .ofOption (IndexStatistics.viewAs "ProjectContext") b.project),
    ("total_tokens", .int b.totalTokens), ("degraded_sections", .texts b.degraded)]

/-- Reads a context. -/
def decode : Value → Checked (Bundle Float) :=
  record .exchanged fun f =>
    mk <$> f.withDefault "current_file" none (Decode.optional CurrentFile.decode) <*>
      f.withDefault "related_files" [] (Decode.list RelatedFile.decode) <*>
      f.withDefault "dependencies" [] (Decode.list DependencyEntry.decode) <*>
      f.withDefault "similar_code" [] (Decode.list SimilarEntry.decode) <*>
      f.withDefault "project_context" none (Decode.optional IndexStatistics.decode) <*>
      f.withDefault "total_tokens" 0 Decode.int <*>
      f.withDefault "degraded_sections" [] (Decode.list Decode.text)

end Bundle

namespace ContextUse

/-- The fields of a use. -/
def view (u : ContextUse) : View :=
  .record "ContextUsed" [("type", .text u.type), ("files_referenced", .int u.files),
    ("dependencies_included", .int u.dependencies), ("token_count", .int u.tokens)]

/-- Reads a use. -/
def decode : Value → Checked ContextUse :=
  record .exchanged fun f =>
    mk <$> f.withDefault "type" "intelligent_context" Decode.text <*>
      f.withDefault "files_referenced" 0 Decode.int <*>
      f.withDefault "dependencies_included" 0 Decode.int <*>
      f.withDefault "token_count" 0 Decode.int

end ContextUse

end CodeAtlas

/-! ### Answers

What a language model answered to a question, and what the context before the question took from the
index.
-/

namespace CodeAtlas

open Decode

/-- The reply of a language model. -/
structure GatewayReply where
  text : String
  /-- Counts that the model reports. -/
  usage : List (String × Int) := []

namespace GatewayReply

/-- The fields of a reply. -/
def view (r : GatewayReply) : View :=
  .record "GatewayResponse" [("text", .text r.text),
    ("usage", .mapping (r.usage.map fun (key, n) => (key, .int n)))]

/-- Reads a reply. -/
def decode : Value → Checked GatewayReply :=
  record .exchanged fun f =>
    mk <$> f.required "text" Decode.text <*> f.withDefault "usage" [] (Decode.mapping Decode.int)

end GatewayReply

/-- A reply with the use of the context. -/
structure Answer where
  reply : GatewayReply
  use : ContextUse := {}
  degraded : List String := []

namespace Answer

/-- The fields of an answer. -/
def view (a : Answer) : View :=
  .record "AskResult" [("response", a.reply.view), ("context_used", a.use.view),
    ("degraded_sections", .texts a.degraded)]

/-- Reads an answer. -/
def decode : Value → Checked Answer :=
  record .exchanged fun f =>
    mk <$> f.required "response" GatewayReply.decode <*>
      f.withDefault "context_used" {} ContextUse.decode <*>
      f.withDefault "degraded_sections" [] (Decode.list Decode.text)

end Answer

end CodeAtlas
