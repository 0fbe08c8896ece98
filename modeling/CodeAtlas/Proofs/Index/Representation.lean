import CodeAtlas.Index.Query
import CodeAtlas.Proofs.Index.History
import Mathlib.Data.List.Count

/-!
# What the tables of an index say

`Index.Represents` reads the tables of an index against a log of its writes: one row for each file
that was written and not removed, its columns, its chunks as queries and counts see them, its
symbols, and a generation that counts its writes.

## Main results

`Index.replay_represents`: whatever was called on an index, and whatever failed, its tables say what
the log of the calls says.
-/

namespace CodeAtlas

/-! ### Rows -/

/-- The columns of a row are what its record says. -/
structure FileRow.Agrees (r : FileRow) : Prop where
  owner : r.owner = r.record.owner
  workspace : r.workspace = r.record.workspace
  path : r.path = r.record.path
  relativePath : r.relativePath = r.record.relativePath
  language : r.language = r.record.language
  contentHash : r.contentHash = r.record.contentHash
  lineCount : r.lineCount = r.record.lineCount
  framework : r.framework = r.record.findings.framework
  exports : r.exports = r.record.exports
  /-- The first three functions are named. -/
  keyFunctions : r.keyFunctions = (r.record.functions.take 3).map (·.name)
  indexedAt : r.indexedAt = r.record.indexedAt
  generation : r.record.generation = r.generation

namespace Tables

/-- The symbols of a file: each exported name and each imported name once, and nothing else. -/
structure Lists (t : Tables) (r : FileRow) : Prop where
  exported (name : String) : t.symbols.count ⟨r.id, name, .exported⟩ =
    if name ∈ r.record.exports then 1 else 0
  imported (name : String) : t.symbols.count ⟨r.id, name, .imported⟩ =
    if ∃ i ∈ r.record.imports, name ∈ i.names then 1 else 0

variable {t : Tables} {log : WriteLog}

theorem Sound.agrees (sound : t.Sound) {r : FileRow} (member : r ∈ t.files)
    (generation : r.record.generation = r.generation) (time : r.record.indexedAt = r.indexedAt) :
    r.Agrees := by
  have columns := sound.columns r member
  constructor <;> first | exact generation | exact time.symm | (rw [columns]; rfl)

/-- A symbol is counted where its file lists it. -/
private theorem count_symbolsOf (t : Tables) (id : Nat) (name : String) (use : SymbolUse) :
    t.symbols.count ⟨id, name, use⟩ = (t.symbolsOf id).count ⟨id, name, use⟩ := by
  rw [symbolsOf, List.count_filter (by simp)]

theorem Sound.lists (sound : t.Sound) {r : FileRow} (member : r ∈ t.files) : t.Lists r := by
  have mk (use : SymbolUse) : Function.Injective fun name => (⟨r.id, name, use⟩ : SymbolRow) :=
    fun _ _ same => by simpa using same
  -- A list of the symbols of one use says nothing about the other use.
  have other (use use' : SymbolUse) (differ : use ≠ use') (names : List String) (name : String) :
      (names.map fun name => (⟨r.id, name, use⟩ : SymbolRow)).count ⟨r.id, name, use'⟩ = 0 :=
    List.count_eq_zero.mpr (by simp [differ])
  constructor
  · intro name
    rw [count_symbolsOf, sound.listed r member, SymbolRow.ofRecord, List.count_append,
      List.count_map_of_injective _ _ (mk .exported), other .imported .exported (by decide),
      Nat.add_zero, (nodup_distinct _).count]
    simp only [mem_distinct]
  · intro name
    rw [count_symbolsOf, sound.listed r member, SymbolRow.ofRecord, List.count_append,
      List.count_map_of_injective _ _ (mk .imported), other .exported .imported (by decide),
      Nat.zero_add, IndexedFile.importedNames, importedNames, (nodup_distinct _).count]
    simp only [mem_distinct, List.mem_flatMap]

/-! ### Chunks -/

/-- The chunks of a row that count are those last written. -/
theorem Shows.chunks (shows_ : t.Shows log) (sound : t.Sound) {r : FileRow} (member : r ∈ t.files) :
    (t.chunks.filter fun c => c.file == r.id && c.generation == r.generation) =
      (log.chunksOf r.key).map (ChunkRow.mk r.id r.generation) := by
  obtain ⟨file, written, _⟩ := shows_.present (sound.file?_iff.mpr ⟨member, rfl⟩)
  have last : log.chunksOf r.key = t.chunksOf r := by
    rw [WriteLog.chunksOf, show r.key = (r.owner, r.workspace, r.path) from rfl, written]
    rfl
  rw [last, chunksOf, List.map_map]
  refine ((List.map_congr_left fun c kept => ?_).trans (List.map_id _)).symm
  obtain ⟨own, current⟩ : c.file = r.id ∧ c.generation = r.generation := by
    simpa using (List.mem_filter.mp kept).2
  rw [Function.comp_apply, ← own, ← current, id]

/-- No chunk of an earlier generation is left. -/
theorem Sound.stored (sound : t.Sound) {r : FileRow} (member : r ∈ t.files) :
    (t.chunks.filter fun c => c.file == r.id) =
      t.chunks.filter fun c => c.file == r.id && c.generation == r.generation := by
  refine List.filter_congr fun c stored => ?_
  by_cases own : c.file = r.id
  · obtain ⟨r', member', id, generation⟩ := sound.chunks c stored
    rw [sound.eq_of_id member' member (id.trans own)] at generation
    simp [own, generation]
  · simp [own]

/-- The chunks that count are those last written of each file. -/
theorem Shows.activeChunks (shows_ : t.Shows log) (sound : t.Sound) :
    t.activeChunks.Perm (t.files.flatMap fun r =>
      (log.chunksOf r.key).map fun c => (r, ⟨r.id, r.generation, c⟩)) := by
  have rows := activeChunks_perm sound
  rwa [List.flatMap_congr (g := fun r => (log.chunksOf r.key).map fun c =>
    (r, (⟨r.id, r.generation, c⟩ : ChunkRow))) fun r member => by
      rw [shows_.chunks sound member, List.map_map]
      rfl] at rows

private theorem length_filter_flatMap (rows : List FileRow) (p : FileRow → Bool)
    (chunks : FileRow → List IndexedChunk) :
    ((rows.flatMap fun r => (chunks r).map fun c =>
        (r, (⟨r.id, r.generation, c⟩ : ChunkRow))).filter fun x => p x.1).length =
      ((rows.filter p).flatMap chunks).length := by
  induction rows with
  | nil => rfl
  | cons r rows ih =>
    rw [List.flatMap_cons, List.filter_append, List.length_append, ih, List.filter_map]
    by_cases counts : p r = true <;> simp [Function.comp_def, counts]

/-- The number of chunks that count is that of those last written. -/
theorem Shows.chunkCount (shows_ : t.Shows log) (sound : t.Sound) (owner : String)
    (path : Option String) : t.chunkCount owner path =
      (((t.filesOf owner).filter fun r => restricts path r.isNamed).flatMap fun r =>
        log.chunksOf r.key).length := by
  rw [Tables.chunkCount, ((shows_.activeChunks sound).filter _).length_eq,
    length_filter_flatMap t.files (fun r => r.owner == owner && restricts path r.isNamed),
    filesOf, List.filter_filter]
  simp only [Bool.and_comm]

/-- What a query ranks are the chunks last written that it admits and does not cut. -/
theorem Shows.ranked (shows_ : t.Shows log) (sound : t.Sound) {κ : Type} [Mul κ] [LT κ]
    [DecidableLT κ] (score : IndexedChunk → κ) (rounded : κ → κ) (owner : String)
    (filter : SimilarFilter) (least weight : κ) :
    ((t.rankedChunks score rounded owner filter least weight).map (·.item)).Perm
      ((t.filesOf owner).flatMap fun r =>
        ((log.chunksOf r.key).map fun c => (r, (⟨r.id, r.generation, c⟩ : ChunkRow))).filter
          fun x => admits filter x.1 x.2 &&
            !decide (Scored.weighted weight x.2.chunk.embedding.isFallback
              (score x.2.chunk) < least)) := by
  refine ((List.mergeSort_perm _ _).map _).trans ?_
  simp only [List.filter_map, List.map_map, Function.comp_def, List.filter_filter, List.map_id']
  refine ((shows_.activeChunks sound).filter _).trans (.of_eq ?_)
  rw [List.filter_flatMap, filesOf]
  induction t.files with
  | nil => rfl
  | cons r rows ih =>
    rw [List.flatMap_cons, ih, List.filter_cons]
    by_cases own : r.owner = owner
    · rw [if_pos (by simpa using own), List.flatMap_cons]
      refine congrArg (· ++ _) ?_
      rw [List.filter_map]
      refine congrArg (List.map _) (List.filter_congr fun c _ => ?_)
      simp [own, Bool.and_comm]
    · rw [if_neg (by simpa using own)]
      refine (congrArg (· ++ _) (List.filter_eq_nil_iff.mpr fun x of => ?_)).trans
        (List.nil_append _)
      obtain ⟨c, _, rfl⟩ := List.mem_map.mp of
      simp [own]

end Tables

namespace Index

open Tables

/-- The tables of an index say what a log of its writes says. -/
structure Represents (ix : Index) (log : WriteLog) : Prop where
  /-- No two rows of files have the same owner, workspace and path. -/
  keys : (ix.tables.files.map FileRow.key).Nodup
  ids : (ix.tables.files.map (·.id)).Nodup
  structures : (ix.tables.workspaces.map WorkspaceRow.key).Nodup
  /-- Every chunk belongs to the present generation of a file. -/
  chunkRows : ∀ c ∈ ix.tables.chunks, ∃ r ∈ ix.tables.files, r.id = c.file ∧
    r.generation = c.generation
  /-- Every symbol belongs to a file. -/
  symbolRows : ∀ s ∈ ix.tables.symbols, ∃ r ∈ ix.tables.files, r.id = s.file
  /-- There are rows of just the files that were written and not removed. -/
  rows : ∀ key, (∃ r ∈ ix.tables.files, r.key = key) ↔ (log.written key).isSome
  /-- A row has the record last written, and its generation is the number of the writes of the file
  since it was added. -/
  records : ∀ r ∈ ix.tables.files, ∃ w, log.written r.key = some w ∧ r.generation = w.times ∧
    r.record = { w.file with generation := r.generation, indexedAt := r.indexedAt }
  columns : ∀ r ∈ ix.tables.files, r.Agrees
  symbols : ∀ r ∈ ix.tables.files, ix.tables.Lists r
  /-- The stored chunks of a file are those last written. -/
  chunks : ∀ r ∈ ix.tables.files,
    (ix.tables.chunks.filter fun c => c.file == r.id).map (·.chunk) = log.chunksOf r.key
  /-- A count counts those. -/
  counted : ∀ owner path, ix.chunkCount Faults.none owner path =
    .ok (((ix.tables.filesOf owner).filter fun r => restricts path r.isNamed).flatMap fun r =>
      log.chunksOf r.key).length
  /-- A query ranks those that its filter admits and whose score it does not cut. -/
  similar : ∀ owner q, ∃ ranked : List (Scored Float (FileRow × ChunkRow)),
    ix.similar Faults.none owner q = .ok ((Slice.upTo q.count ranked).map similarChunk) ∧
    (ranked.map (·.item)).Perm ((ix.tables.filesOf owner).flatMap fun r =>
      ((log.chunksOf r.key).map fun c => (r, ⟨r.id, r.generation, c⟩)).filter fun x =>
        admits q.filter x.1 x.2 &&
          !decide (Scored.weighted q.fallbackWeight x.2.chunk.embedding.isFallback
            (Similarity.cosine q.vector x.2.chunk.embedding.vector) < q.least))

variable {ix : Index} {log : WriteLog}

/-- Without a fault a query is answered with the front of what is ranked. -/
theorem Settled.similar (settled : ix.Settled) (owner : String) (q : SimilarQuery) :
    ix.similar Faults.none owner q = .ok ((Slice.upTo q.count (ix.tables.rankedChunks
      (fun c => Similarity.cosine q.vector c.embedding.vector) (Number.roundTo similarityPlaces)
      owner q.filter q.least q.fallbackWeight)).map similarChunk) := by
  simp only [Index.similar, read, Faults.none, settled.opened, if_true]
  rfl

/-- Tables that hang together and show what a log leaves say what it says. -/
theorem Settled.represents (settled : ix.Settled) (shows_ : ix.tables.Shows log) :
    ix.Represents log where
  keys := settled.sound.keys
  ids := settled.sound.ids
  structures := settled.sound.workspaces
  chunkRows := settled.sound.chunks
  symbolRows := settled.sound.symbols
  rows := by
    rintro ⟨owner, workspace, path⟩
    cases found : ix.tables.file? owner workspace path with
    | none =>
      rw [shows_.absent found]
      simpa using file?_eq_none_iff.mp found
    | some r =>
      obtain ⟨_, written, _⟩ := shows_.present found
      rw [written]
      exact iff_of_true ⟨r, mem_of_file? found⟩ rfl
  records r member := by
    obtain ⟨file, written, record⟩ := shows_.present (settled.sound.file?_iff.mpr ⟨member, rfl⟩)
    exact ⟨_, written, rfl, record⟩
  columns r member := by
    obtain ⟨file, _, record⟩ := shows_.present (settled.sound.file?_iff.mpr ⟨member, rfl⟩)
    exact settled.sound.agrees member (by rw [record]) (by rw [record])
  symbols r member := settled.sound.lists member
  chunks r member := by
    rw [settled.sound.stored member, shows_.chunks settled.sound member, List.map_map]
    exact List.map_id _
  counted owner path := by
    simp only [chunkCount, read, Faults.none, settled.opened, if_true]
    exact congrArg Except.ok (shows_.chunkCount settled.sound owner path)
  similar owner q := ⟨_, settled.similar owner q, shows_.ranked settled.sound _ _ _ _ _ _⟩

/-- After any calls on an empty index, those included whose transaction failed, the tables say what
the log of the calls says. -/
theorem replay_represents (clock : Int) (calls : List IndexCall) :
    (replay clock calls).2.Represents (replay clock calls).1 :=
  (replay_settled clock calls).represents (replay_shows clock calls)

end Index

end CodeAtlas
