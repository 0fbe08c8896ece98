import CodeAtlas.Proofs.Index.History
import CodeAtlas.Proofs.Index.Owner
import Mathlib.Data.List.Find

/-!
# What a write leaves alone

The part of the tables within a scope, such as an owner or a workspace of an owner, is made of tables
of its own. No answer to an owner looks beyond the part of the owner, and no action of a write for
another owner or workspace reaches into a part. So it makes no difference to a part whether such a
write is done, is refused, or stops half way and cannot even be undone.

## Main results

`Tables.Contains` says that tables have a part, `Progress.run_contains` that it outlasts actions that
spare it, and `IndexWrite.plan_spares` that those of a write spare every part beyond it.
`Index.replay_frame` takes this to all answers of an index.
-/

namespace CodeAtlas

/-- A choice among workspaces, by their owners and paths. -/
abbrev Scope := String → String → Bool

namespace Scope

/-- All that an owner has. -/
def ofOwner (owner : String) : Scope :=
  fun owner' _ => owner' == owner

/-- One workspace of an owner. -/
def ofWorkspace (owner workspace : String) : Scope :=
  fun owner' workspace' => owner' == owner && workspace' == workspace

end Scope

namespace Tables

/-- One of the files has the identity. -/
def hasId (t : Tables) (id : Nat) : Bool :=
  t.files.any (·.id == id)

/-- What the tables have within a scope: files with their chunks and symbols, and the structures of
workspaces. -/
def part (t : Tables) (scope : Scope) : Tables :=
  let files := t.files.filter fun r => scope r.owner r.workspace
  { files
    chunks := t.chunks.filter fun c => files.any (·.id == c.file)
    symbols := t.symbols.filter fun s => files.any (·.id == s.file)
    workspaces := t.workspaces.filter fun w => scope w.owner w.path }

variable {t t' p : Tables} {scope : Scope} {id : Nat} {row : FileRow}

theorem hasId_part : (t.part scope).hasId id = true ↔
    ∃ r ∈ t.files, scope r.owner r.workspace = true ∧ r.id = id := by
  simp [part, hasId]

/-- The tables have a part within a scope, and no file beyond the scope has an identity of the part.
-/
structure Contains (t : Tables) (scope : Scope) (p : Tables) : Prop where
  same : t.part scope = p
  apart : ∀ r ∈ t.files, p.hasId r.id = true → scope r.owner r.workspace = true

/-- The files of sound tables have identities of their own. -/
theorem contains_part (sound : t.Sound) (scope : Scope) : t.Contains scope (t.part scope) where
  same := rfl
  apart r member own := by
    obtain ⟨r', member', within, same⟩ := hasId_part.mp own
    rwa [sound.eq_of_id member' member same] at within

/-! ### Changes beyond a part -/

/-- Items that are kept anyway are not missed. -/
private theorem filter_kept {α : Type} {l : List α} {keep own : α → Bool}
    (kept : ∀ x ∈ l, own x = true → keep x = true) : (l.filter keep).filter own = l.filter own := by
  rw [List.filter_filter]
  refine List.filter_congr fun x member => ?_
  by_cases has : own x = true
  · rw [has, kept x member has, Bool.and_self]
  · simp [has]

namespace Contains

/-- Tables in which the same is left within the scope. -/
theorem congr (has : t.Contains scope p)
    (files : t'.files.filter (fun r => scope r.owner r.workspace) =
      t.files.filter fun r => scope r.owner r.workspace)
    (chunks : t'.chunks.filter (fun c => p.hasId c.file) = t.chunks.filter fun c => p.hasId c.file)
    (symbols : t'.symbols.filter (fun s => p.hasId s.file) =
      t.symbols.filter fun s => p.hasId s.file)
    (workspaces : t'.workspaces.filter (fun w => scope w.owner w.path) =
      t.workspaces.filter fun w => scope w.owner w.path)
    (apart : ∀ r ∈ t'.files, p.hasId r.id = true → scope r.owner r.workspace = true) :
    t'.Contains scope p where
  same := by
    obtain ⟨rfl, _⟩ := has
    simp only [Tables.part, hasId] at files chunks symbols workspaces ⊢
    rw [files, chunks, symbols, workspaces]
  apart := apart

/-- A file within the scope has its identity in the part. -/
theorem hasId (has : t.Contains scope p) {r : FileRow} (member : r ∈ t.files)
    (within : scope r.owner r.workspace = true) : p.hasId r.id = true :=
  has.same ▸ hasId_part.mpr ⟨r, member, within, rfl⟩

theorem addFile (has : t.Contains scope p) (beyond : scope row.owner row.workspace = false)
    (foreign : p.hasId row.id = false) : (t.addFile row).Contains scope p := by
  refine has.congr (by simp [Tables.addFile, beyond]) rfl rfl rfl fun r member own => ?_
  rcases List.mem_append.mp member with old | new
  · exact has.apart r old own
  · rw [List.mem_singleton.mp new, foreign] at own
    cases own

theorem replaceFile (has : t.Contains scope p) (beyond : scope row.owner row.workspace = false)
    (foreign : p.hasId row.id = false) : (t.replaceFile row).Contains scope p := by
  -- The rows that are replaced are beyond the scope, as the row is.
  have replaced {r : FileRow} (member : r ∈ t.files) (same : r.id = row.id) :
      scope r.owner r.workspace = false := by
    by_contra within
    have own := has.hasId member (by simpa using within)
    rw [same, foreign] at own
    cases own
  refine has.congr ?_ rfl rfl rfl fun r member own => ?_
  · simp only [Tables.replaceFile, List.filter_map]
    have unmoved : ∀ r ∈ t.files, ((fun r => scope r.owner r.workspace) ∘ fun r : FileRow =>
        if r.id == row.id then row else r) r = scope r.owner r.workspace := by
      intro r member
      by_cases same : r.id = row.id <;> simp [same, beyond, replaced member]
    rw [List.filter_congr unmoved]
    refine (List.map_congr_left fun r kept => ?_).trans (List.map_id _)
    obtain ⟨member, within⟩ := List.mem_filter.mp kept
    refine if_neg fun same => ?_
    rw [replaced member (by simpa using same)] at within
    cases within
  · obtain ⟨old, among, rfl⟩ := List.mem_map.mp member
    split at own
    · rw [foreign] at own
      cases own
    next other =>
      rw [if_neg other]
      exact has.apart old among own

/-- An identity of the part is not a foreign one. -/
private theorem ne_foreign (foreign : p.hasId id = false) {id' : Nat} (own : p.hasId id' = true) :
    (id' != id) = true := by
  rw [bne_iff_ne]
  rintro rfl
  rw [own] at foreign
  cases foreign

theorem deleteFile (has : t.Contains scope p) (foreign : p.hasId id = false) :
    (t.deleteFile id).Contains scope p :=
  has.congr
    (filter_kept fun _ member within => ne_foreign foreign (has.hasId member within))
    (filter_kept fun _ _ => ne_foreign foreign)
    (filter_kept fun _ _ => ne_foreign foreign) rfl
    fun r member own => has.apart r (List.mem_filter.mp member).1 own

theorem addChunk (has : t.Contains scope p) {row : ChunkRow} (foreign : p.hasId row.file = false) :
    (t.addChunk row).Contains scope p :=
  has.congr rfl (by simp [Tables.addChunk, foreign]) rfl rfl has.apart

theorem dropOtherGenerations (has : t.Contains scope p) (foreign : p.hasId id = false)
    (generation : Nat) : (t.dropOtherGenerations id generation).Contains scope p :=
  has.congr rfl
    (filter_kept fun _ _ own => by rw [ne_foreign foreign own, Bool.true_or]) rfl rfl has.apart

theorem addSymbol (has : t.Contains scope p) {row : SymbolRow}
    (foreign : p.hasId row.file = false) : (t.addSymbol row).Contains scope p :=
  has.congr rfl rfl (by simp [Tables.addSymbol, foreign]) rfl has.apart

theorem dropSymbols (has : t.Contains scope p) (foreign : p.hasId id = false) :
    (t.dropSymbols id).Contains scope p :=
  has.congr rfl rfl (filter_kept fun _ _ => ne_foreign foreign) rfl has.apart

theorem putWorkspace (has : t.Contains scope p) {row : WorkspaceRow}
    (beyond : scope row.owner row.path = false) : (t.putWorkspace row).Contains scope p := by
  obtain ⟨workspaces, put⟩ := Index.putWorkspace_files (t := t) row
  refine has.congr (by rw [put]) (by rw [put]) (by rw [put]) ?_ (by rw [put]; exact has.apart)
  simp only [Tables.putWorkspace]
  split
  · -- Only rows of the same owner and path are replaced.
    induction t.workspaces with
    | nil => rfl
    | cons w rest ih =>
      simp only [List.map_cons, List.filter_cons, ih]
      by_cases same : (w.owner == row.owner && w.path == row.path) = true
      · rw [Bool.and_eq_true, beq_iff_eq, beq_iff_eq] at same
        simp [same, beyond]
      · simp [same]
  · simp [beyond]

end Contains

end Tables

/-! ### Actions and writes -/

/-- The action leaves a part of the tables as it is. -/
def Action.Spares (scope : Scope) (p : Tables) : Action → Prop
  | .stamp => True
  | .run _ effect => ∀ t t' : Tables, t.Contains scope p → effect t = .ok t' → t'.Contains scope p

namespace Action

variable {scope : Scope} {p : Tables}

theorem spares_look (statement : Statement) : (look statement).Spares scope p :=
  fun _ _ has looked => Except.ok.inj looked ▸ has

theorem spares_apply (statement : Statement) {effect : Tables → Tables}
    (keeps : ∀ t : Tables, t.Contains scope p → (effect t).Contains scope p) :
    (apply statement effect).Spares scope p :=
  fun t _ has applied => Except.ok.inj applied ▸ keeps t has

theorem spares_bind (statement : Statement) (numbers : List Int) {effect : Tables → Tables}
    (keeps : ∀ t : Tables, t.Contains scope p → (effect t).Contains scope p) :
    (bind statement numbers effect).Spares scope p := by
  intro t t' has bound
  split at bound
  · exact Except.ok.inj bound ▸ keeps t has
  · cases bound

end Action

/-- Actions that spare a part spare it wherever they stop. -/
theorem Progress.run_contains {scope : Scope} {p : Tables} {faults : Faults} {position : Nat}
    {actions : List Action} {q : Progress} (spare : ∀ a ∈ actions, a.Spares scope p)
    (has : q.tables.Contains scope p) :
    (Progress.run faults position actions q).2.tables.Contains scope p := by
  induction actions generalizing position q with
  | nil => exact has
  | cons a rest ih =>
    obtain ⟨first, rest_⟩ := List.forall_mem_cons.mp spare
    cases a with
    | stamp => exact ih rest_ has
    | run statement effect =>
      simp only [run]
      split
      · exact has
      · split
        · exact has
        next t made => exact ih rest_ (first q.tables t has made)

namespace Index

open Tables

variable {scope : Scope} {t p : Tables}

/-- The parts of a file are written under its identity. -/
theorem partActions_spare {id generation : Nat} {file : IndexedFile} {chunks : List IndexedChunk}
    (foreign : p.hasId id = false) :
    ∀ a ∈ partActions id generation file chunks, a.Spares scope p := by
  have listed : ∀ row ∈ SymbolRow.ofRecord id file, row.file = id := by
    simp only [SymbolRow.ofRecord, List.mem_append, List.mem_map]
    rintro _ (⟨_, _, rfl⟩ | ⟨_, _, rfl⟩) <;> rfl
  intro a member
  simp only [partActions, List.cons_append, List.mem_cons, List.mem_append, List.mem_map,
    List.not_mem_nil, or_false] at member
  rcases member with rfl | ((⟨c, _, rfl⟩ | rfl | rfl | rfl) | ⟨row, among, rfl⟩)
  · exact Action.spares_look _
  · exact Action.spares_bind _ _ fun t has => has.addChunk foreign
  · exact Action.spares_apply _ fun t has => has.dropOtherGenerations foreign generation
  · exact Action.spares_apply _ fun t has => has.dropSymbols foreign
  · exact Action.spares_look _
  · exact Action.spares_apply _ fun t has => has.addSymbol (by rwa [listed row among])

/-- A write of a file beyond a scope spares its part. -/
theorem fileActions_spare (sound : t.Sound) {file : IndexedFile} {chunks : List IndexedChunk}
    {force : Bool} {now : Timestamp} (beyond : scope file.owner file.workspace = false) :
    ∀ a ∈ (fileActions file chunks force t now).1, a.Spares scope (t.part scope) := by
  simp only [fileActions]
  split
  next present found =>
    obtain ⟨member, atKey⟩ := mem_of_file? found
    simp only [FileRow.key, Prod.mk.injEq] at atKey
    split
    · simpa using Action.spares_look _
    · -- The identity of the row that is there is not one of the part.
      have foreign : (t.part scope).hasId present.id = false := by
        by_contra own
        have within := (contains_part sound scope).apart present member (by simpa using own)
        rw [atKey.1, atKey.2.1, beyond] at within
        cases within
      intro a among
      rcases List.mem_append.mp among with row | parts
      · simp only [List.mem_cons, List.not_mem_nil, or_false] at row
        rcases row with rfl | rfl | rfl
        · exact Action.spares_look _
        · trivial
        · exact Action.spares_bind _ _ fun t has => has.replaceFile beyond foreign
      · exact partActions_spare foreign a parts
  next absent =>
    -- No file has the next identity.
    have foreign : (t.part scope).hasId t.nextId = false := by
      by_contra own
      obtain ⟨r, member, _, same⟩ := hasId_part.mp (by simpa using own)
      exact absurd same (Nat.ne_of_lt (sound.below r member))
    intro a among
    rcases List.mem_append.mp among with row | parts
    · simp only [List.mem_cons, List.not_mem_nil, or_false] at row
      rcases row with rfl | rfl | rfl
      · exact Action.spares_look _
      · trivial
      · exact Action.spares_bind _ _ fun t has => has.addFile beyond foreign
    · exact partActions_spare foreign a parts

end Index

namespace IndexWrite

open Index Tables

/-- For whom a write is. -/
def owner : IndexWrite → String
  | file f _ _ => f.owner
  | removal owner _ _ | structure_ owner _ _ => owner

/-- The workspace that a write is about. -/
def workspace : IndexWrite → String
  | file f _ _ => f.workspace
  | removal _ workspace _ | structure_ _ workspace _ => workspace

variable {scope : Scope} {t : Tables} {ix : Index}

/-- The actions of a write beyond a scope spare its part. -/
theorem plan_spares (sound : t.Sound) (w : IndexWrite) (now : Timestamp)
    (beyond : scope w.owner w.workspace = false) :
    ∀ a ∈ (w.plan t now).1, a.Spares scope (t.part scope) := by
  cases w with
  | file f chunks force => exact fileActions_spare sound beyond
  | removal owner workspace live =>
    intro a among
    simp only [plan, List.mem_append, List.mem_cons, List.not_mem_nil, or_false, List.mem_map,
      mem_doomed_iff] at among
    rcases among with (rfl | rfl) | ⟨r, ⟨member, rfl, rfl, _⟩, rfl⟩
    · exact Action.spares_look _
    · exact Action.spares_look _
    · refine Action.spares_apply _ fun t' has => has.deleteFile ?_
      by_contra own
      have within := (contains_part sound scope).apart r member (by simpa using own)
      cases within.symm.trans beyond
  | structure_ owner workspace found =>
    intro a among
    simp only [plan, List.mem_cons, List.not_mem_nil, or_false] at among
    rcases among with rfl | rfl
    · trivial
    · exact Action.spares_apply _ fun t' has => has.putWorkspace beyond

/-- Whatever comes of a write, every part beyond it is left. -/
theorem run_contains (settled : ix.Settled) (w : IndexWrite) (faults : Faults)
    (beyond : scope w.owner w.workspace = false) :
    (w.run faults ix).2.tables.Contains scope (ix.tables.part scope) := by
  have before := contains_part settled.sound scope
  have spare : ∀ a ∈ (w.plan ix.tables ix.now).1 ++ [.look .commit],
      a.Spares scope (ix.tables.part scope) := by
    intro a among
    rcases List.mem_append.mp among with planned | last
    · exact w.plan_spares settled.sound ix.now beyond a planned
    · exact List.mem_singleton.mp last ▸ Action.spares_look _
  have after : (Progress.run faults 1 ((w.plan ix.tables ix.now).1 ++ [.look .commit])
      { tables := ix.tables }).2.tables.Contains scope (ix.tables.part scope) :=
    Progress.run_contains spare before
  rw [run_eq_write]
  cases starting : faults 0 .beginWrite with
  | some reason =>
    rw [write_unbegun settled.opened settled.unbegun starting]
    exact before
  | none =>
    cases ran : Progress.run faults 1 ((w.plan ix.tables ix.now).1 ++ [.look .commit])
        { tables := ix.tables } with
    | mk stopped q =>
      rw [ran] at after
      simp only [write, settled.opened, settled.unbegun, starting, ran, Bool.not_true,
        Bool.false_eq_true, if_false, Option.isSome_none]
      cases stopped with
      | none => exact after
      | some refusal =>
        -- Either the tables are put back, or they stay as the last action left them.
        simp only [giveUp]
        split
        · exact after
        · exact before

theorem run_isOpen (w : IndexWrite) (faults : Faults) (ix : Index) :
    (w.run faults ix).2.isOpen = ix.isOpen := by
  rw [run_eq_write]
  simp only [write, giveUp]
  repeat' split
  all_goals rfl

end IndexWrite

/-! ### Answers -/

namespace Tables.Contains

variable {t p : Tables} {owner : String}

theorem filesOf (has : t.Contains (.ofOwner owner) p) : t.filesOf owner = p.filesOf owner := by
  rw [← has.same]
  simp [Tables.filesOf, Tables.part, Scope.ofOwner]

theorem file? (has : t.Contains (.ofOwner owner) p) (workspace path : String) :
    t.file? owner workspace path = p.file? owner workspace path := by
  have among (t : Tables) : t.file? owner workspace path =
      (t.filesOf owner).find? fun r => r.isAt owner workspace path := by
    simp only [Tables.file?, Tables.filesOf, List.find?_filter]
    refine congrArg (List.find? · t.files) (funext fun r => ?_)
    rw [Bool.eq_iff_iff]
    simp [FileRow.isAt, and_assoc]
  rw [among, among, has.filesOf]

theorem namedFiles (has : t.Contains (.ofOwner owner) p) (path : String) :
    t.namedFiles owner path = p.namedFiles owner path := by
  rw [Tables.namedFiles, Tables.namedFiles, has.filesOf]

theorem symbolFiles (has : t.Contains (.ofOwner owner) p) (symbol : String) (use : SymbolUse) :
    t.symbolFiles owner symbol use = p.symbolFiles owner symbol use := by
  rw [Tables.symbolFiles, Tables.symbolFiles, has.filesOf]
  refine congrArg newestFirst (List.filter_congr fun r member => ?_)
  -- The symbols of a file of the owner are in the part.
  obtain ⟨member, own⟩ := mem_filesOf.mp (has.filesOf ▸ member)
  have kept : p.hasId r.id = true := has.hasId member (by simp [Scope.ofOwner, own])
  rw [← has.same] at kept ⊢
  rw [Bool.eq_iff_iff, List.contains_iff_mem, List.contains_iff_mem]
  exact ⟨fun listed => List.mem_filter.mpr ⟨listed, kept⟩,
    fun listed => (List.mem_filter.mp listed).1⟩

theorem workspacesOf (has : t.Contains (.ofOwner owner) p) :
    t.workspacesOf owner = p.workspacesOf owner := by
  rw [← has.same]
  simp [Tables.workspacesOf, Tables.part, Scope.ofOwner]

/-- The chunks that count of the files within a scope are those of the part. -/
theorem activeChunks {scope : Scope} (has : t.Contains scope p) :
    t.activeChunks.filter (fun x => scope x.1.owner x.1.workspace) = p.activeChunks := by
  have files : p.files = t.files.filter fun r => scope r.owner r.workspace := has.same ▸ rfl
  have chunks : p.chunks = t.chunks.filter fun c => p.hasId c.file := by
    obtain ⟨rfl, _⟩ := has
    rfl
  rw [Tables.activeChunks, Tables.activeChunks, chunks, files, List.filter_filterMap,
    List.filterMap_filter]
  refine List.filterMap_congr fun c _ => ?_
  -- A file with the identity of the chunk is within the scope just when the part has the identity.
  have inside {r : FileRow} (member : r ∈ t.files) (same : r.id = c.file) :
      scope r.owner r.workspace = p.hasId c.file :=
    Bool.eq_iff_iff.mpr
      ⟨fun within => same ▸ has.hasId member within, fun own => has.apart r member (same ▸ own)⟩
  have inside_found {r : FileRow} (found : t.files.find?
        (fun r => r.id == c.file && r.generation == c.generation) = some r) :
      scope r.owner r.workspace = p.hasId c.file := by
    obtain ⟨same, _⟩ : r.id = c.file ∧ r.generation = c.generation := by
      simpa using List.find?_some found
    exact inside (List.mem_of_find?_eq_some found) same
  cases own : p.hasId c.file with
  | true =>
    have only : (t.files.filter fun r => scope r.owner r.workspace).find?
          (fun r => r.id == c.file && r.generation == c.generation) =
        t.files.find? fun r => r.id == c.file && r.generation == c.generation := by
      rw [List.find?_filter]
      refine List.find?_congr fun r member => ?_
      rw [Bool.eq_iff_iff]
      by_cases same : r.id = c.file <;> simp [same, inside member, own]
    rw [if_pos rfl, only]
    cases found : t.files.find? fun r => r.id == c.file && r.generation == c.generation with
    | none => rfl
    | some r => exact Option.filter_some_pos ((inside_found found).trans own)
  | false =>
    rw [if_neg Bool.false_ne_true]
    cases found : t.files.find? fun r => r.id == c.file && r.generation == c.generation with
    | none => rfl
    | some r => exact Option.filter_some_neg ((inside_found found).trans own)

/-- Chunks of an owner are chosen in the same way from the part of the owner. -/
theorem chosenChunks (has : t.Contains (.ofOwner owner) p) (choose : FileRow × ChunkRow → Bool) :
    t.activeChunks.filter (fun x => x.1.owner == owner && choose x) =
      p.activeChunks.filter fun x => x.1.owner == owner && choose x := by
  rw [← has.activeChunks, List.filter_filter]
  refine List.filter_congr fun x _ => ?_
  by_cases own : x.1.owner = owner <;> simp [Scope.ofOwner, own]

end Tables.Contains

namespace Index

open Tables

/-- Two indices answer an owner in the same way, whatever is asked and whatever fails. -/
structure SameAnswers (owner : String) (ix ix' : Index) : Prop where
  fileHash (faults : Faults) (workspace path : String) :
    ix'.fileHash faults owner workspace path = ix.fileHash faults owner workspace path
  recordsAt (faults : Faults) (path : String) :
    ix'.recordsAt faults owner path = ix.recordsAt faults owner path
  similar (faults : Faults) (q : SimilarQuery) :
    ix'.similar faults owner q = ix.similar faults owner q
  exporters (faults : Faults) (symbol : String) (limit : Int) :
    ix'.exporters faults owner symbol limit = ix.exporters faults owner symbol limit
  importers (faults : Faults) (symbol : String) (limit : Int) :
    ix'.importers faults owner symbol limit = ix.importers faults owner symbol limit
  list (faults : Faults) (workspace : Option String) :
    ix'.list faults owner workspace = ix.list faults owner workspace
  statistics (faults : Faults) : ix'.statistics faults owner = ix.statistics faults owner
  chunkCount (faults : Faults) (path : Option String) :
    ix'.chunkCount faults owner path = ix.chunkCount faults owner path

variable {ix ix' : Index} {owner : String} {p : Tables}

/-- A query of tables that give the same answer. -/
theorem read_congr {α : Type} {answer : Tables → Except Failure α} (opened : ix.isOpen = true)
    (opened' : ix'.isOpen = true) (same : answer ix'.tables = answer ix.tables) (faults : Faults)
    (position : Nat) (statement : Statement) :
    (ix'.read faults position statement).bind answer =
      (ix.read faults position statement).bind answer := by
  simp only [read, opened, opened', if_true]
  cases faults position statement with
  | some reason => rfl
  | none => exact same

/-- Indices with the same part of an owner answer the owner in the same way. -/
theorem sameAnswers (opened : ix.isOpen = true) (opened' : ix'.isOpen = true)
    (has : ix.tables.Contains (.ofOwner owner) p) (has' : ix'.tables.Contains (.ofOwner owner) p) :
    SameAnswers owner ix ix' where
  fileHash faults workspace path := by
    refine read_congr opened opened' ?_ faults 0 _
    rw [has.file?, has'.file?]
  recordsAt faults path := by
    refine read_congr opened opened' ?_ faults 0 _
    rw [has.namedFiles, has'.namedFiles]
  similar faults q := by
    refine read_congr opened opened' ?_ faults 0 _
    simp only [rankedChunks]
    rw [has.chosenChunks fun x => admits q.filter x.1 x.2,
      has'.chosenChunks fun x => admits q.filter x.1 x.2]
  exporters faults symbol limit := by
    refine read_congr opened opened' ?_ faults 0 _
    simp only [has.symbolFiles, has'.symbolFiles]
  importers faults symbol limit := by
    refine read_congr opened opened' ?_ faults 0 _
    simp only [has.symbolFiles, has'.symbolFiles]
  list faults workspace := by
    refine read_congr opened opened' ?_ faults 0 _
    simp only [listed, has.filesOf, has'.filesOf]
  statistics faults := by
    rw [statistics_eq opened, statistics_eq opened', has.filesOf, has'.filesOf, has.workspacesOf,
      has'.workspacesOf]
  chunkCount faults path := by
    refine read_congr opened opened' ?_ faults 0 _
    simp only [Tables.chunkCount]
    rw [has.chosenChunks fun x => restricts path x.1.isNamed,
      has'.chosenChunks fun x => restricts path x.1.isNamed]

/-- Whatever was called before, and whatever becomes of a write, it is no concern of others: every
other owner is answered as before, and all other workspaces of the owner have the same rows, chunks,
symbols and structures. -/
theorem replay_frame (clock : Int) (calls : List IndexCall) (w : IndexWrite) (faults : Faults)
    (pause : Int) :
    let before := (replay clock calls).2
    let after := (w.run faults { before with clock := before.clock + pause }).2
    (∀ owner, owner ≠ w.owner → SameAnswers owner before after) ∧
    ∀ workspace, workspace ≠ w.workspace →
      after.tables.part (.ofWorkspace w.owner workspace) =
        before.tables.part (.ofWorkspace w.owner workspace) := by
  intro before after
  have settled : before.Settled := replay_settled clock calls
  have later := settled.later (before.clock + pause)
  have left {scope : Scope} (beyond : scope w.owner w.workspace = false) :
      after.tables.Contains scope (before.tables.part scope) := w.run_contains later faults beyond
  refine ⟨fun owner other => ?_, fun workspace other => ?_⟩
  · have beyond : Scope.ofOwner owner w.owner w.workspace = false := by
      simpa [Scope.ofOwner] using other.symm
    have opened : after.isOpen = true := (w.run_isOpen faults _).trans later.opened
    exact sameAnswers settled.opened opened (contains_part settled.sound _) (left beyond)
  · have beyond : Scope.ofWorkspace w.owner workspace w.owner w.workspace = false := by
      simpa [Scope.ofWorkspace] using other.symm
    exact (left beyond).same

/-- Two owners have indexed the same file, one of them in two workspaces. It is written again in one
of these, its symbols cannot be inserted, and the transaction cannot be undone. -/
theorem replay_frame_sameFile :
    let file (owner workspace relativePath : String) : IndexedFile := {
      owner, workspace, path := "/w/a.py", relativePath, name := "a.py", extension := "py"
      language := .python, content := "", contentHash := "", exports := ["run"]
      indexedAt := Timestamp.ofMicros 0 }
    let call (f : IndexedFile) : IndexCall :=
      ⟨.file f [] false, Faults.none, Faults.none_undoable, 0⟩
    let before := (replay 0 [call (file "bob" "/w" "a.py"), call (file "alice" "/" "w/a.py"),
      call (file "alice" "/w" "a.py")]).2
    let faults : Faults := fun _ statement => match statement with
      | .insertSymbols | .rollback => some "disk I/O error"
      | _ => none
    let after := ((IndexWrite.file (file "alice" "/w" "a.py") [] true).run faults before).2
    after.begun.isSome ∧ (before.tables.part (.ofWorkspace "alice" "/")).symbols.length = 1 ∧
      SameAnswers "bob" before after ∧
      after.tables.part (.ofWorkspace "alice" "/") =
        before.tables.part (.ofWorkspace "alice" "/") := by
  intro file call before faults after
  have frame := replay_frame 0 [call (file "bob" "/w" "a.py"), call (file "alice" "/" "w/a.py"),
    call (file "alice" "/w" "a.py")] (.file (file "alice" "/w" "a.py") [] true) faults 0
  exact ⟨rfl, rfl, frame.1 "bob" (by decide), frame.2 "/" (by decide)⟩

end Index

end CodeAtlas
