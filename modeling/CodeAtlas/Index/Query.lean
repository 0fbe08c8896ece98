import CodeAtlas.Embedding.Similarity
import CodeAtlas.Index.Transaction

/-!
What an index answers: the records of a file, chunks like a vector, the files that export or import
a symbol, lists, counts and statistics. Every answer is about one owner.
-/

/-! ### Ranking

Ranking by a score and, among equal scores, by age. Scores are of any type with an order and a
product.
-/

namespace CodeAtlas

/-- A candidate with its score and the time of its last write. -/
structure Scored (κ α : Type) where
  item : α
  score : κ
  written : Int

namespace Scored

variable {κ α : Type}

/-- The score of a candidate; a stand-in counts by a weight. -/
def weighted [Mul κ] (weight : κ) (isStandIn : Bool) (score : κ) : κ :=
  if isStandIn then score * weight else score

/-- `a` has a higher score than `b`, or the same and is newer. -/
def outranks [LT κ] [DecidableLT κ] (a b : Scored κ α) : Bool :=
  b.score < a.score || (!(a.score < b.score) && b.written < a.written)

/-- The best first; what does not outrank each other keeps its order. -/
def ranked [LT κ] [DecidableLT κ] (candidates : List (Scored κ α)) : List (Scored κ α) :=
  candidates.mergeSort fun a b => !b.outranks a

end Scored

end CodeAtlas

namespace CodeAtlas

namespace Tables

/-- The latest written first, by the text of the time. -/
def newestFirst (rows : List FileRow) : List FileRow :=
  rows.mergeSort fun a b => decide (b.indexedAt.storedText ≤ a.indexedAt.storedText)

/-- The files with that absolute or relative path, the latest written first. -/
def namedFiles (t : Tables) (owner path : String) : List FileRow :=
  newestFirst ((t.filesOf owner).filter (·.isNamed path))

/-- The files that use a symbol in a way, the latest written first. -/
def symbolFiles (t : Tables) (owner symbol : String) (use : SymbolUse) : List FileRow :=
  newestFirst ((t.filesOf owner).filter fun r => t.symbols.contains ⟨r.id, symbol, use⟩)

/-- A condition on a text that an absent or empty one does not make. -/
def restricts (given : Option String) (holds : String → Bool) : Bool :=
  match given with
  | some text => text == "" || holds text
  | none => true

/-- A filter lets a chunk of a file pass. -/
def admits (filter : SimilarFilter) (r : FileRow) (c : ChunkRow) : Bool :=
  restricts filter.workspace (r.workspace == ·) &&
    filter.language.all (r.language == ·) &&
    filter.kind.all (c.chunk.kind == ·) &&
    restricts filter.excludedFile (fun path => !r.isNamed path) &&
    restricts filter.model (c.chunk.embedding.model == ·)

/-- The chunks of an owner that a filter lets pass and whose weighted score is not below `least`,
scored by the rounded weighted score, the best first. -/
def rankedChunks {κ : Type} [Mul κ] [LT κ] [DecidableLT κ] (t : Tables)
    (score : IndexedChunk → κ) (rounded : κ → κ) (owner : String) (filter : SimilarFilter)
    (least weight : κ) : List (Scored κ (FileRow × ChunkRow)) :=
  let candidates := t.activeChunks.filter fun (r, c) => r.owner == owner && admits filter r c
  let scored := candidates.map fun (r, c) =>
    Scored.mk (r, c) (Scored.weighted weight c.chunk.embedding.isFallback (score c.chunk))
      r.indexedAt.toMicros
  Scored.ranked ((scored.filter fun s => !(s.score < least)).map fun s =>
    { s with score := rounded s.score })

/-- The files of an owner, perhaps of one workspace, by relative path. -/
def listed (t : Tables) (owner : String) (workspace : Option String) : List FileRow :=
  ((t.filesOf owner).filter fun r => restricts workspace (r.workspace == ·)).mergeSort fun a b =>
    decide (a.relativePath ≤ b.relativePath)

/-- The sum of numbers, unless a sum on the way does not fit in a table. -/
def total? (numbers : List Int) : Option Int :=
  numbers.foldl (fun sum n => sum.bind fun s => if Action.fits (s + n) then some (s + n) else none)
    (some 0)

/-- How often each text occurs: the most frequent first, and by the text among equals. -/
def frequencies (words : List String) : List (String × Nat) :=
  ((distinct words).map fun word => (word, words.count word)).mergeSort fun a b =>
    decide (b.2 < a.2) || (a.2 == b.2 && decide (a.1 ≤ b.1))

/-- The share of a language among some files; the average has one decimal. -/
def shareOf (rows : List FileRow) (language : String) (count : Nat) : LanguageShare :=
  let own := rows.filter fun r => r.language.id == language
  let lines := own.foldr (fun r n => r.lineCount + n) 0
  ⟨language, count, Number.roundTo 1 (Number.nearest (lines < 0) lines.natAbs 1 / count.toFloat)⟩

/-- So many frameworks are named in statistics. -/
def frameworkLimit : Nat := 3

/-- The workspaces of an owner by path. -/
def workspacesOf (t : Tables) (owner : String) : List WorkspaceRecord :=
  let rows := (t.workspaces.filter fun w => w.owner == owner).mergeSort fun a b =>
    decide (a.path ≤ b.path)
  rows.map fun w => ⟨w.path, w.structure_, some w.lastIndexedAt⟩

/-- The chunks that count of an owner, perhaps of one file. -/
def chunkCount (t : Tables) (owner : String) (path : Option String) : Nat :=
  (t.activeChunks.filter fun (r, _) => r.owner == owner && restricts path r.isNamed).length

end Tables

namespace Index

open Tables

/-- The hash of the stored content of a file. -/
def fileHash (faults : Faults) (owner workspace path : String) (ix : Index) :
    Except Failure (Option String) := do
  let t ← ix.read faults 0 .selectHash
  return (t.file? owner workspace path).map (·.contentHash)

/-- The records with that absolute or relative path, the latest written first. -/
def recordsAt (faults : Faults) (owner path : String) (ix : Index) :
    Except Failure (List IndexedFile) := do
  let t ← ix.read faults 0 .selectRecords
  return (t.namedFiles owner path).map (·.record)

/-- The digits to which similarities are rounded. -/
def similarityPlaces : Nat := 6

/-- A question for chunks like a vector. -/
structure SimilarQuery where
  vector : List Float
  filter : SimilarFilter := {}
  /-- At most so many, by a signed count. -/
  count : Int := 10
  least : Float := 0.0
  /-- What the score of a local feature vector counts. -/
  fallbackWeight : Float := 1.0

/-- A ranked chunk as it is answered. -/
def similarChunk (s : Scored Float (FileRow × ChunkRow)) : SimilarChunk :=
  let (r, c) := s.item
  { path := r.path
    relativePath := r.relativePath
    workspace := r.workspace
    language := r.language
    kind := c.chunk.kind
    name := c.chunk.name
    startLine := c.chunk.startLine
    endLine := c.chunk.endLine
    content := c.chunk.content
    similarity := s.score
    source := c.chunk.embedding.source.word
    signals := c.chunk.signals
    indexedAt := r.indexedAt }

/-- The chunks most like a vector, by the cosine. -/
def similar (faults : Faults) (owner : String) (q : SimilarQuery) (ix : Index) :
    Except Failure (List SimilarChunk) := do
  let t ← ix.read faults 0 (.selectSimilar q.filter)
  let ranked := t.rankedChunks (fun c => Similarity.cosine q.vector c.embedding.vector)
    (Number.roundTo similarityPlaces) owner q.filter q.least q.fallbackWeight
  return (Slice.upTo q.count ranked).map similarChunk

/-- The files that use a symbol, the latest written first; a negative limit is none. -/
def symbolFiles (faults : Faults) (owner symbol : String) (use : SymbolUse) (limit : Int)
    (ix : Index) : Except Failure (List FileSummary) := do
  let t ← ix.read faults 0 .selectSymbolFiles
  if !Action.fits limit then throw oversized
  let rows := t.symbolFiles owner symbol use
  return (if limit < 0 then rows else rows.take limit.toNat).map (·.summary)

/-- The files that export a symbol. -/
def exporters (faults : Faults) (owner symbol : String) (limit : Int) (ix : Index) :
    Except Failure (List FileSummary) :=
  ix.symbolFiles faults owner symbol .exported limit

/-- The files that import a symbol. -/
def importers (faults : Faults) (owner symbol : String) (limit : Int) (ix : Index) :
    Except Failure (List FileSummary) :=
  ix.symbolFiles faults owner symbol .imported limit

/-- The files of an owner, perhaps of one workspace, by relative path. -/
def list (faults : Faults) (owner : String) (workspace : Option String) (ix : Index) :
    Except Failure (List FileSummary) := do
  let t ← ix.read faults 0 (.selectFiles ((workspace.getD "") != ""))
  return (t.listed owner workspace).map (·.summary)

/-- Totals, languages, frameworks and workspaces of an owner. -/
def statistics (faults : Faults) (owner : String) (ix : Index) :
    Except Failure IndexStatistics := do
  let rows := (← ix.read faults 0 .selectTotals).filesOf owner
  let some totalLines := total? (rows.map (·.lineCount))
    | throw (readFailure "integer overflow")
  let _ ← ix.read faults 1 .selectLanguages
  let _ ← ix.read faults 2 .selectFrameworks
  let t ← ix.read faults 3 .selectWorkspaces
  return {
    totalFiles := rows.length
    totalLines
    languages := (frequencies (rows.map (·.language.id))).map fun (word, count) =>
      shareOf rows word count
    frameworks := ((frequencies (rows.filterMap (·.framework))).take frameworkLimit).map (·.1)
    workspaces := t.workspacesOf owner }

/-- The number of chunks that count, perhaps of one file. -/
def chunkCount (faults : Faults) (owner : String) (path : Option String) (ix : Index) :
    Except Failure Nat := do
  let t ← ix.read faults 0 (.countChunks ((path.getD "") != ""))
  return t.chunkCount owner path

end Index

end CodeAtlas
