import CodeAtlas.Proofs.Engine.History
import CodeAtlas.Proofs.Index.Table
import CodeAtlas.Proofs.Tree.Walk
import Mathlib.Data.Set.Function

/-!
# Every row comes from a content

Whatever an engine was called for, each file in its index is held just as some content decides that
was once read under the path of the file. So when contents have different hashes, the hash in a row
tells all that is held of the file.

## Main results

`Engine.derived_apply`: a call keeps this. `FileRow.Derived.holding`: the hash tells the holding.
-/

namespace CodeAtlas

namespace EntryDraft

/-- Where a draft belongs and what it was made from. -/
theorem columns_of (a : OutlineConfig) (owner : String) (workspace path : FilePath)
    (content contentHash : String) (modifiedAt now : Timestamp) :
    let file := (of a owner workspace path ⟨content, contentHash, modifiedAt⟩ now).file
    file.workspace = workspace.text ∧ file.path = path.text ∧ file.contentHash = contentHash :=
  ⟨rfl, rfl, rfl⟩

/-- The draft that a content decides, at no particular time. -/
def timeless (a : OutlineConfig) (owner : String) (workspace path : FilePath) (content : String) :
    EntryDraft :=
  .of a owner workspace path ⟨content, Digest.ofText content, default⟩ default

/-- What is held of a file whose entry is made from a draft without a provider. -/
def holding (c : EmbeddingConfig) (d : EntryDraft) : Holding :=
  ⟨(FileRow.ofRecord 0 d.file 0 default).undated, (d.embedded (d.features c)).chunks,
    (SymbolRow.ofRecord 0 d.file).map fun s => (s.symbol, s.use)⟩

/-- The drafts tell the same of a file but for its times. -/
structure Alike (d d' : EntryDraft) : Prop where
  file : d.file.undated = d'.file.undated
  chunks : d.chunks = d'.chunks

theorem Alike.symm {d d' : EntryDraft} (alike : Alike d d') : Alike d' d :=
  ⟨alike.file.symm, alike.chunks.symm⟩

theorem alike_timeless (a : OutlineConfig) (owner : String) (workspace path : FilePath)
    (content : String) (modifiedAt now : Timestamp) :
    Alike (.of a owner workspace path ⟨content, Digest.ofText content, modifiedAt⟩ now)
      (timeless a owner workspace path content) :=
  ⟨rfl, rfl⟩

theorem Alike.holding {d d' : EntryDraft} (alike : Alike d d') (c : EmbeddingConfig) :
    d.holding c = d'.holding c := by
  -- A holding is about the undated record, so times play no part.
  have file {d : EntryDraft} : d.holding c = ⟨(FileRow.ofRecord 0 d.file.undated 0 default).undated,
      (d.embedded (d.features c)).chunks,
      (SymbolRow.ofRecord 0 d.file.undated).map fun s => (s.symbol, s.use)⟩ := rfl
  rw [file, file, alike.file]
  simp only [embedded, features, alike.chunks]

@[simp] theorem length_features (c : EmbeddingConfig) (d : EntryDraft) :
    (d.features c).length = d.chunks.length := by
  simp [features]

/-- Apart from the embeddings the chunks of an entry are those of the draft. -/
theorem bare_embedded (d : EntryDraft) {embeddings : List Embedding}
    (count : embeddings.length = d.chunks.length) :
    (d.embedded embeddings).chunks.map IndexedChunk.bare =
      d.chunks.map fun chunk => (IndexedChunk.ofDraft chunk ⟨.fallback, [], ""⟩).bare := by
  obtain ⟨file, chunks⟩ := d
  simp only [embedded] at count ⊢
  induction chunks generalizing embeddings with
  | nil => simp
  | cons chunk rest ih =>
    cases embeddings with
    | nil => cases count
    | cons embedding more =>
      simp only [List.zipWith_cons_cons, List.map_cons, List.cons.injEq]
      exact ⟨rfl, ih (Nat.succ.inj count)⟩

/-- The numbers of a draft that a table has to hold. -/
def Storable (d : EntryDraft) : Prop :=
  (d.file.lineCount :: d.chunks.flatMap fun chunk => [chunk.startLine, chunk.endLine]).all
    Action.fits = true

theorem Alike.storable {d d' : EntryDraft} (alike : Alike d d') (storable : d.Storable) :
    d'.Storable := by
  have lines : d.file.lineCount = d'.file.lineCount := congrArg (·.lineCount) alike.file
  rwa [Storable, lines, alike.chunks] at storable

theorem storable_embedded (d : EntryDraft) {embeddings : List Embedding}
    (count : embeddings.length = d.chunks.length) :
    Index.Storable d.file (d.embedded embeddings).chunks ↔ d.Storable := by
  have numbers : (d.embedded embeddings).chunks.flatMap (fun c => [c.startLine, c.endLine]) =
      d.chunks.flatMap fun chunk => [chunk.startLine, chunk.endLine] := by
    -- Lines are no part of an embedding, so they can be read off the bare chunks.
    have bare := congrArg (List.flatMap fun c : IndexedChunk => [c.startLine, c.endLine])
      (d.bare_embedded count)
    rw [List.flatMap_map, List.flatMap_map] at bare
    exact bare
  simp only [Index.Storable, Index.numbersOf, Storable, numbers]

end EntryDraft

/-- What is held of a file is what some content decides that was read under its path. -/
inductive FileRow.Derived (c : EngineConfig) (contents : Set String) (offline : Prop) (r : FileRow)
    (chunks : List IndexedChunk) : Prop where
  | of (workspace path : FilePath) (content : String) (modifiedAt now : Timestamp) (d : EntryDraft)
      (embeddings : List Embedding) (root : workspace.Named) (named : path.Named)
      (known : content ∈ contents)
      (draft : d = .of c.analyzer r.owner workspace path
        ⟨content, Digest.ofText content, modifiedAt⟩ now)
      (record : r.record = { d.file with generation := r.generation, indexedAt := r.indexedAt })
      (embedded : chunks = (d.embedded embeddings).chunks)
      (count : embeddings.length = d.chunks.length)
      (features : offline → embeddings = d.features c.embeddings)
      (storable : d.Storable) (timely : Engine.Timely c)

namespace FileRow.Derived

variable {c : EngineConfig} {contents : Set String} {offline : Prop} {t : Tables} {r : FileRow}
  {workspace path : FilePath} {content : String}

/-- The hash in a row tells all that is held of the file, and that it can be held. -/
theorem holding (sound : t.Sound) (member : r ∈ t.files)
    (derived : r.Derived c contents offline (t.chunksOf r))
    (injective : Set.InjOn Digest.ofText contents) (root : workspace.Named) (named : path.Named)
    (inside : r.workspace = workspace.text) (atPath : r.path = path.text)
    (known : content ∈ contents) (hash : r.contentHash = Digest.ofText content) :
    let d := EntryDraft.timeless c.analyzer r.owner workspace path content
    (t.holding r).bare = (d.holding c.embeddings).bare ∧
      (offline → t.holding r = d.holding c.embeddings) ∧ d.Storable ∧ Engine.Timely c := by
  obtain ⟨workspace', path', content', modifiedAt, now, d, embeddings, root', named', known', draft,
    record, embedded, count, features, storable, timely⟩ := derived
  have columns := sound.columns r member
  obtain ⟨inside', atPath', hash'⟩ := EntryDraft.columns_of c.analyzer r.owner workspace' path'
    content' (Digest.ofText content') modifiedAt now
  rw [← draft] at inside' atPath' hash'
  -- Which workspace, path and content it was is told by the columns of the row.
  have column {α : Type} (f : FileRow → α) : f r =
      f (FileRow.ofRecord r.id { d.file with generation := r.generation, indexedAt := r.indexedAt }
        r.generation r.indexedAt) := by
    rw [← record, ← columns]
  obtain rfl : workspace' = workspace :=
    root'.eq_of_text root (inside'.symm.trans ((column (·.workspace)).symm.trans inside))
  obtain rfl : path' = path :=
    named'.eq_of_text named (atPath'.symm.trans ((column (·.path)).symm.trans atPath))
  have stored : r.contentHash = d.file.contentHash := column (·.contentHash)
  obtain rfl : content' = content := injective known' known (by rw [← hash, stored, hash'])
  have row : r.undated = (FileRow.ofRecord 0 d.file 0 default).undated := by
    rw [columns, record]
    rfl
  have symbols : (t.holding r).symbols =
      (SymbolRow.ofRecord 0 d.file).map fun s => (s.symbol, s.use) := by
    rw [Tables.holding_symbols sound member, record]
    rfl
  have alike := EntryDraft.alike_timeless c.analyzer r.owner workspace' path' content' modifiedAt now
  rw [← draft] at alike
  intro d'
  -- It could have been read at any time.
  have same : d'.holding c.embeddings = d.holding c.embeddings := (alike.holding _).symm
  rw [same]
  refine ⟨?_, fun alone => ?_, alike.storable storable, timely⟩
  · have chunks := (congrArg (List.map IndexedChunk.bare) embedded).trans
      ((d.bare_embedded count).trans (d.bare_embedded (d.length_features c.embeddings)).symm)
    simp only [Holding.bare, EntryDraft.holding, Holding.mk.injEq]
    exact ⟨row, chunks, symbols⟩
  · simp only [Tables.holding, EntryDraft.holding, Holding.mk.injEq]
    exact ⟨row, embedded.trans (by rw [features alone]), symbols⟩

end FileRow.Derived

/-! ### Calls -/

/-- Files are outlined by their contents, which are among the given ones. -/
structure Conditions.Reading (contents : Set String) (c : Conditions) : Prop where
  genuine : c.Genuine
  grammar : c.outage .grammar = none
  tree : c.tree.Named
  known : ∀ {path : FilePath} {read : ReadFile}, ReadFile.of c.tree path = .ok read →
    read.content ∈ contents

/-- Runs read files in this way. -/
def EngineEvent.Reading {τ : Type} (contents : Set String) : EngineEvent τ → Prop
  | .index s _ _ _ _ _ => ∀ w, (s.conditions w).Reading contents
  | _ => True

/-- What is read stands in a file of the tree. -/
theorem ReadFile.file_of {t : Tree} {path : FilePath} {read : ReadFile}
    (given : ReadFile.of t path = .ok read) : ∃ place bytes modified,
      t.top.below? place = some (.file bytes modified) ∧
      read.content = String.ofList (Text.ofUtf8Repairing bytes) := by
  simp only [ReadFile.of, Tree.read, Tree.find] at given
  cases led : t.place true Tree.maxLinks [] path.parts with
  | error fault =>
    rw [led] at given
    cases given
  | ok place =>
    cases stands : t.top.below? place with
    | none =>
      rw [led] at given
      simp only [stands] at given
      cases given
    | some n =>
      rw [led] at given
      cases n with
      | file bytes modified =>
        simp only [stands] at given
        cases given
        exact ⟨place, bytes, modified, stands, rfl⟩
      | link target =>
        simp only [stands] at given
        cases given
      | dir entries =>
        simp only [stands] at given
        cases given

theorem Conditions.Calm.reading {contents : Set String} {c : Conditions} (calm : c.Calm)
    (tree : c.tree.Named) (known : ∀ {path : FilePath} {read : ReadFile},
      ReadFile.of c.tree path = .ok read → read.content ∈ contents) : c.Reading contents :=
  ⟨calm.genuine, calm.working _, tree, known⟩

theorem ReadFile.hash_of {t : Tree} {path : FilePath} {read : ReadFile}
    (given : ReadFile.of t path = .ok read) : read.contentHash = Digest.ofText read.content := by
  simp only [ReadFile.of] at given
  split at given
  · cases given
  · rw [← Except.ok.inj given]

namespace Engine

variable {τ σ ω : Type}

/-- Everything that is held of files comes from contents. -/
structure Derived (c : EngineConfig) (contents : Set String) (offline : Prop) (e : Engine τ σ) :
    Prop where
  config : e.config = c
  embedding : e.embedder.config = c.embeddings
  alone : offline → e.embedder.Offline
  settled : e.index.Settled
  rows : ∀ r ∈ e.index.tables.files, r.Derived c contents offline (e.index.tables.chunksOf r)

variable {c : EngineConfig} {contents : Set String} {offline : Prop}

/-- The same files with the same chunks come from the same contents. -/
theorem Derived.sameFiles {e : Engine τ σ} (derived : e.Derived c contents offline)
    {embedder : Embedder τ σ} (work : e.embedder.Work embedder) {index : Index}
    (settled : index.Settled) (files : index.tables.files = e.index.tables.files)
    (chunks : index.tables.chunks = e.index.tables.chunks) (memory : ContextMemory τ) :
    ({ e with embedder, index, memory } : Engine τ σ).Derived c contents offline where
  config := derived.config
  embedding := work.kin.config.trans derived.embedding
  alone only := work.offline (derived.alone only)
  settled := settled
  rows r member := by
    have same : index.tables.chunksOf r = e.index.tables.chunksOf r := by
      rw [Tables.chunksOf, Tables.chunksOf, chunks]
    rw [same]
    exact derived.rows r (files ▸ member)

/-- Forgetting is about what is kept. -/
theorem Derived.forget {e : Engine τ σ} (derived : e.Derived c contents offline) (around : Conditions)
    (owner : String) : (e.forget around owner).2.Derived c contents offline := by
  obtain ⟨memory, same⟩ := forget_engine around owner e
  rw [same]
  exact derived.sameFiles (.refl _) derived.settled rfl rfl memory

section Runs

variable {s : Surroundings ω} {goal : RunGoal}

theorem derived_tellAll {run : IndexRun τ σ ω} (derived : run.engine.Derived c contents offline)
    (owner : String) (paths : List String) :
    (paths.foldl (IndexRun.tell s owner) run).engine.Derived c contents offline := by
  induction paths generalizing run with
  | nil => exact derived
  | cons path rest ih => exact ih (derived.forget _ owner)

/-- The row that is written comes from the content that was read, and all others stay as they are.
-/
theorem derived_dealt (positive : 0 < c.embeddings.batchSize)
    (reading : ∀ w, (s.conditions w).Reading contents) {path : FilePath}
    (root : goal.workspace.Named) (named : path.Named) {run run' : IndexRun τ σ ω}
    (dealt : IndexRun.Dealt s goal path run run') (derived : run.engine.Derived c contents offline) :
    run'.engine.Derived c contents offline := by
  cases dealt with
  | cancelled off after =>
    rw [after]
    exact derived
  | failed embedder index f work settled tables engine =>
    rw [engine]
    exact derived.sameFiles work settled (by rw [tables]) (by rw [tables]) run.engine.memory
  | skipped embedder index read work settled tables engine =>
    rw [engine]
    exact derived.sameFiles work settled (by rw [tables]) (by rw [tables]) run.engine.memory
  | written embedder index read outline d embeddings work settled tables engine report changed around
      given outlined draft count features storable timely =>
    rw [engine]
    refine Derived.forget (e := { run.engine with embedder, index }) ⟨derived.config,
      work.kin.config.trans derived.embedding, fun only => work.offline (derived.alone only), settled,
      fun r member => ?_⟩ _ _
    -- Of the row that is written the run says what it was made from.
    have accepts : run.engine.index.tables.Accepts
      (run.engine.index.tables.rowFor d.file run.engine.index.now) := Tables.accepts_rowFor
    rw [tables, Tables.mem_put derived.settled.sound accepts] at member
    rw [tables, Tables.chunksOf_put]
    rcases member with ⟨old, other⟩ | rfl
    · rw [if_neg other]
      exact derived.rows r old
    · rw [if_pos rfl, if_pos rfl]
      have count := count (by rwa [derived.embedding])
      obtain ⟨content, contentHash, modifiedAt⟩ := read
      have hash : contentHash = Digest.ofText content := ReadFile.hash_of given
      have outlined := outlined (reading run.around).grammar
      have owner : (run.engine.index.tables.rowFor d.file run.engine.index.now).owner =
          goal.owner := (congrArg Prod.fst Tables.rowFor_key).trans (by rw [draft]; rfl)
      refine .of goal.workspace path content modifiedAt run.engine.index.now d embeddings root named
        ((reading run.around).known given) ?_ ?_ rfl count ?_ ((d.storable_embedded count).mp storable)
        (derived.config ▸ timely)
      · rw [owner, draft, outlined, hash, derived.config]
        rfl
      · rw [Tables.rowFor_indexedAt]
        exact Tables.rowFor_record
      · intro only
        rw [features (derived.alone only), derived.embedding]

theorem derived_swept {files : List FilePath} {unreadable : List String} {run : IndexRun τ σ ω}
    {out : Option Failure × IndexRun τ σ ω}
    (swept : IndexRun.Swept s goal files unreadable run out)
    (derived : run.engine.Derived c contents offline) : out.2.engine.Derived c contents offline := by
  cases swept with
  | failed index f settled tables =>
    exact derived.sameFiles (.refl _) settled (by rw [tables]) (by rw [tables]) run.engine.memory
  | removed index live gone deleted settled tables =>
    -- What is left has the same rows with the same chunks.
    have left : ({ run.engine with index } : Engine τ σ).Derived c contents offline := by
      refine ⟨derived.config, derived.embedding, derived.alone, settled, fun r member => ?_⟩
      rw [tables, Tables.mem_drop] at member
      rw [tables, Tables.chunksOf_drop, if_neg member.2]
      exact derived.rows r member.1
    exact derived_tellAll left _ _

/-- The steps of runs keep every row derived. -/
theorem kept_derived (positive : 0 < c.embeddings.batchSize)
    (reading : ∀ w, (s.conditions w).Reading contents) :
    IndexRun.Kept s (Derived c contents offline : Engine τ σ → Prop) where
  settled derived := derived.settled
  dealt := fun ⟨w, names⟩ _ dealt => by
    obtain ⟨root, named⟩ := names (reading w).tree
    exact derived_dealt positive reading root named dealt
  swept := derived_swept
  saved {e _ _} settled tables derived :=
    derived.sameFiles (.refl _) settled (by rw [tables]) (by rw [tables]) e.memory

end Runs

section Time

set_option linter.unusedSectionVars false

variable [Add τ] [Sub τ] [LE τ] [DecidableLE τ] [LT τ] [DecidableLT τ] [OfNat τ 0]

/-- A call keeps every row derived. -/
theorem derived_apply (positive : 0 < c.embeddings.batchSize) {e : Engine τ σ}
    {event : EngineEvent τ} (reading : event.Reading contents)
    (derived : e.Derived c contents offline) : (e.apply event).Derived c contents offline := by
  cases event with
  | index s around now owner root force =>
    exact (kept_derived positive reading).indexWorkspace (fun w => (reading w).genuine.honest)
      derived now owner root force around
  | retrieve around now owner query path options =>
    obtain ⟨embedder, memory, work, _, same⟩ :=
      retrieve_engine around now owner query path options _ e
    show (e.retrieve around now owner query path options).2.Derived c contents offline
    rw [same]
    exact derived.sameFiles work derived.settled rfl rfl memory
  | wait micros =>
    exact derived.sameFiles (.refl _) (derived.settled.later (e.index.clock + micros)) rfl rfl
      e.memory

/-- An engine on an empty index holds nothing yet. -/
theorem derived_create (duration : Float → τ) (settings : Settings) (provider : Option (Provider σ))
    (state : σ) (clock : Int) :
    (create duration c settings provider state { clock }).Derived c contents (provider = none) where
  config := rfl
  embedding := rfl
  alone only := ⟨only, rfl⟩
  settled := Index.settled_empty clock
  rows _ member := absurd member List.not_mem_nil

/-- Whatever an engine on an empty index was called for, every row is derived. -/
theorem derived_after (positive : 0 < c.embeddings.batchSize) (duration : Float → τ)
    (settings : Settings) (provider : Option (Provider σ)) (state : σ) (clock : Int)
    {events : List (EngineEvent τ)} (reading : ∀ event ∈ events, event.Reading contents) :
    ((create duration c settings provider state { clock }).after events).Derived c contents
      (provider = none) :=
  after_induction (P := (Derived c contents (provider = none) : Engine τ σ → Prop))
    (fun _ _ reads before => derived_apply positive reads before)
    (derived_create duration settings provider state clock) reading

end Time

end Engine

end CodeAtlas
