import CodeAtlas.Engine.Basic
import CodeAtlas.Index.Query
import CodeAtlas.Outline.Chunk

/-!
From a file to its entry in the index: its content is read and outlined, cut into chunks, and the
chunks are embedded. A file whose stored content is the same needs no entry. All of it has to be
done in a time.
-/

namespace CodeAtlas

/-- A file as it is read. -/
structure ReadFile where
  content : String
  contentHash : String
  modifiedAt : Timestamp

/-- Reads a file. Bytes that are no text are replaced. -/
def ReadFile.of (t : Tree) (path : FilePath) : Except Failure ReadFile :=
  match t.read path with
  | .error fault => .error (.plain (.unforeseen "OSError") (fault.message path))
  | .ok (bytes, modifiedAt) =>
    let content := String.ofList (Text.ofUtf8Repairing bytes)
    .ok ⟨content, Digest.ofText content, modifiedAt⟩

/-- The entry of a file in an index: its record and its chunks. -/
structure IndexEntry where
  file : IndexedFile
  chunks : List IndexedChunk

/-- An entry before its chunks are embedded. -/
structure EntryDraft where
  file : IndexedFile
  chunks : List ChunkDraft

/-- The entry once the chunks have their embeddings. -/
def EntryDraft.embedded (d : EntryDraft) (embeddings : List Embedding) : IndexEntry :=
  ⟨d.file, List.zipWith IndexedChunk.ofDraft d.chunks embeddings⟩

namespace Engine

variable {τ σ : Type}

/-- The outline of a file. -/
def outline (c : Conditions) (e : Engine τ σ) (path : FilePath) (content : String) :
    Except Failure Outline :=
  c.guard .outline (Outage.useless "language") <|
    match c.outage .grammar with
    | some (.answers v) => Outage.useless "language" v
    | some (.fails _) => .ok (Outline.empty path.text (Language.ofPath path.text) content.toList)
    | none => .ok (Outline.analyze e.config.analyzer path.text content)

/-- The draft of a file's entry; `none` when the stored content is the same and nothing forces the
entry. -/
def draft (c : Conditions) (owner : String) (workspace path : FilePath) (force : Bool)
    (e : Engine τ σ) : Except Failure (Option EntryDraft) := do
  let read ← ReadFile.of c.tree path
  let stored ←
    if force then pure none
    else c.guard .fileHash Outage.text? (e.index.fileHash c.faults owner workspace.text path.text)
  if stored == some read.contentHash then return none
  let outline ← e.outline c path read.content
  let chunks ←
    c.guard .chunk (Outage.items "embedding_text")
      (.ok (ChunkDraft.ofOutline e.config.analyzer path.text read.content outline))
  let file := IndexedFile.ofOutline owner workspace path read.content read.contentHash outline
    (some read.modifiedAt) e.index.now
  return some ⟨file, chunks⟩

/-- An entry that took too long. -/
def entryOperation : String := "index_file"

variable [Add τ] [Sub τ] [LE τ] [DecidableLE τ] [LT τ] [DecidableLT τ] [OfNat τ 0]

/-- The entry of a file; `none` when it needs none. -/
def entry (c : Conditions) (now : τ) (owner : String) (workspace path : FilePath) (force : Bool)
    (e : Engine τ σ) : Except Failure (Option IndexEntry) × Engine τ σ :=
  match e.draft c owner workspace path force with
  | .error f => (.error f, e)
  | .ok none => (.ok none, e)
  | .ok (some d) =>
    match c.outage .embedAll with
    | some outage => ((outage.result Outage.embeddings).map fun found => some (d.embedded found), e)
    | none =>
      let seconds := e.config.indexing.fileTimeoutSeconds
      let (ending, embedder) :=
        e.embedder.patiently seconds (·.embedAll now (d.chunks.map (·.embeddingText)))
      (Deadline.guard .timeout entryOperation (.real seconds)
        (ending.map fun embeddings => some (d.embedded embeddings)), { e with embedder })

end Engine

end CodeAtlas
