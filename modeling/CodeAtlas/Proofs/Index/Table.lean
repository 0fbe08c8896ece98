import CodeAtlas.Index.Table
import CodeAtlas.Proofs.Outline.Distinct

/-!
# The tables of an index

`Tables.Sound` says how the four tables hang together. Two operations cover all that writes do to
files: `Tables.put` writes a file with its parts, and `Tables.drop` removes files with theirs. Each
keeps the tables sound, and each is described by what it does to the file of a key, to the chunks
and to the symbols of a row.

The row of a file says when and how often the file was written, and when it was changed. A holding
is all else that the tables have of the file, together with its chunks and its symbols. The holdings
of a workspace are a set (`Tables.holdings_perm`).
-/

namespace CodeAtlas

/-! ### Keys -/

/-- What tells rows of files apart: owner, workspace and path. -/
def FileRow.key (r : FileRow) : String × String × String :=
  (r.owner, r.workspace, r.path)

theorem FileRow.isAt_iff {r : FileRow} {owner workspace path : String} :
    r.isAt owner workspace path = true ↔ r.key = (owner, workspace, path) := by
  simp [isAt, key, and_assoc]

/-- Within a workspace the paths tell rows apart. -/
theorem FileRow.nodup_paths {rows : List FileRow} (keys : (rows.map FileRow.key).Nodup)
    {owner workspace : String} (own : ∀ r ∈ rows, r.owner = owner ∧ r.workspace = workspace) :
    (rows.map (·.path)).Nodup := by
  refine List.Nodup.of_map (fun path => (owner, workspace, path)) ?_
  have same : (rows.map (·.path)).map (fun path => (owner, workspace, path)) =
      rows.map FileRow.key := by
    rw [List.map_map]
    refine List.map_congr_left fun r member => ?_
    obtain ⟨rfl, rfl⟩ := own r member
    rfl
  exact same ▸ keys

/-- What tells rows of workspaces apart: owner and path. -/
def WorkspaceRow.key (w : WorkspaceRow) : String × String :=
  (w.owner, w.path)

namespace Tables

/-- The chunks of a file that count, in the order in which they were written. -/
def chunksOf (t : Tables) (r : FileRow) : List IndexedChunk :=
  (t.chunks.filter fun c => c.file == r.id && c.generation == r.generation).map (·.chunk)

/-- The symbols of a file. -/
def symbolsOf (t : Tables) (id : Nat) : List SymbolRow :=
  t.symbols.filter fun s => s.file == id

/-- How the tables hang together. -/
structure Sound (t : Tables) : Prop where
  ids : (t.files.map (·.id)).Nodup
  keys : (t.files.map FileRow.key).Nodup
  below : ∀ r ∈ t.files, r.id < t.nextId
  /-- The columns of a row are those of its record. -/
  columns : ∀ r ∈ t.files, r = FileRow.ofRecord r.id r.record r.generation r.indexedAt
  /-- A chunk belongs to the present generation of a file. -/
  chunks : ∀ c ∈ t.chunks, ∃ r ∈ t.files, r.id = c.file ∧ r.generation = c.generation
  /-- A symbol belongs to a file. -/
  symbols : ∀ s ∈ t.symbols, ∃ r ∈ t.files, r.id = s.file
  /-- The symbols of a file are those of its record. -/
  listed : ∀ r ∈ t.files, t.symbolsOf r.id = SymbolRow.ofRecord r.id r.record
  workspaces : (t.workspaces.map WorkspaceRow.key).Nodup

theorem sound_empty : ({} : Tables).Sound := by
  constructor <;> simp

/-- A file that is found stands in the tables under its key. -/
theorem mem_of_file? {t : Tables} {r : FileRow} {owner workspace path : String}
    (found : t.file? owner workspace path = some r) :
    r ∈ t.files ∧ r.key = (owner, workspace, path) :=
  ⟨List.mem_of_find?_eq_some found,
    FileRow.isAt_iff.mp (List.find?_some (p := (FileRow.isAt · owner workspace path)) found)⟩

theorem file?_eq_none_iff {t : Tables} {owner workspace path : String} :
    t.file? owner workspace path = none ↔ ∀ r ∈ t.files, r.key ≠ (owner, workspace, path) := by
  rw [file?, List.find?_eq_none]
  exact forall₂_congr fun r _ => not_congr FileRow.isAt_iff

namespace Sound

variable {t : Tables}

theorem eq_of_id (sound : t.Sound) {r r' : FileRow} (member : r ∈ t.files) (member' : r' ∈ t.files)
    (same : r.id = r'.id) : r = r' :=
  List.inj_on_of_nodup_map sound.ids member member' same

theorem eq_of_key (sound : t.Sound) {r r' : FileRow} (member : r ∈ t.files)
    (member' : r' ∈ t.files) (same : r.key = r'.key) : r = r' :=
  List.inj_on_of_nodup_map sound.keys member member' same

/-- Looking up the key of a row finds the row. -/
theorem file?_iff (sound : t.Sound) {r : FileRow} {owner workspace path : String} :
    t.file? owner workspace path = some r ↔ r ∈ t.files ∧ r.key = (owner, workspace, path) := by
  refine ⟨mem_of_file?, fun ⟨member, atKey⟩ => ?_⟩
  cases found : t.file? owner workspace path with
  | none => exact absurd atKey (file?_eq_none_iff.mp found r member)
  | some r' =>
    obtain ⟨member', atKey'⟩ := mem_of_file? found
    rw [sound.eq_of_key member' member (atKey'.trans atKey.symm)]

end Sound

/-! ### Writing a file -/

/-- The tables with a row in place of the one with its identity, or else at the end. -/
def putRow (t : Tables) (row : FileRow) : Tables :=
  if t.files.any (fun r => r.id == row.id) then t.replaceFile row else t.addFile row

/-- The tables with a file, its chunks and its symbols written. -/
def put (t : Tables) (row : FileRow) (chunks : List IndexedChunk) : Tables :=
  { t.putRow row with
    chunks := t.chunks.filter (fun c => c.file != row.id) ++
      chunks.map (⟨row.id, row.generation, ·⟩)
    symbols := t.symbols.filter (fun s => s.file != row.id) ++ SymbolRow.ofRecord row.id row.record }

/-- A row that may be written: it takes the place of the row of its key, or it has a new identity
and a new key. -/
def Accepts (t : Tables) (row : FileRow) : Prop :=
  row = FileRow.ofRecord row.id row.record row.generation row.indexedAt ∧
    ((∃ r ∈ t.files, r.id = row.id ∧ r.key = row.key) ∨
      (row.id = t.nextId ∧ ∀ r ∈ t.files, r.key ≠ row.key))

variable {t : Tables} {row : FileRow} {chunks : List IndexedChunk}

/-- A row has the identity of the written row just when it has its key. -/
theorem Accepts.id_iff_key (sound : t.Sound) (accepts : t.Accepts row) {r : FileRow}
    (member : r ∈ t.files) : r.id = row.id ↔ r.key = row.key := by
  rcases accepts.2 with ⟨present, found, id, key⟩ | ⟨fresh, absent⟩
  · constructor
    · intro same
      rw [sound.eq_of_id member found (same.trans id.symm), key]
    · intro same
      rw [sound.eq_of_key member found (same.trans key.symm), id]
  -- A new row shares neither with any other.
  · have below := sound.below r member
    exact ⟨fun same => absurd same (by omega), fun same => absurd same (absent r member)⟩

theorem mem_putRow (sound : t.Sound) (accepts : t.Accepts row) (r : FileRow) :
    r ∈ (t.putRow row).files ↔ (r ∈ t.files ∧ r.id ≠ row.id) ∨ r = row := by
  rcases accepts.2 with ⟨present, found, id, _⟩ | ⟨fresh, _⟩
  -- The row of the identity is replaced.
  · have any : t.files.any (fun r => r.id == row.id) = true :=
      List.any_eq_true.mpr ⟨present, found, by simpa using id⟩
    simp only [putRow, any, if_true, replaceFile, List.mem_map]
    constructor
    · rintro ⟨old, member, rfl⟩
      by_cases same : old.id = row.id <;> simp [same, member]
    · rintro (⟨member, other⟩ | rfl)
      · exact ⟨r, member, by simp [other]⟩
      · exact ⟨present, found, by simp [id]⟩
  -- No row has the identity, so the row is added at the end.
  · have any : t.files.any (fun r => r.id == row.id) = false := by
      rw [List.any_eq_false]
      intro r member
      have below := sound.below r member
      simp only [beq_iff_eq]
      omega
    simp only [putRow, any, Bool.false_eq_true, if_false, addFile, List.mem_append,
      List.mem_singleton]
    constructor
    · rintro (member | rfl)
      · have below := sound.below r member
        exact .inl ⟨member, by omega⟩
      · exact .inr rfl
    · rintro (⟨member, _⟩ | rfl)
      · exact .inl member
      · exact .inr rfl

theorem mem_put (sound : t.Sound) (accepts : t.Accepts row) (r : FileRow) :
    r ∈ (t.put row chunks).files ↔ (r ∈ t.files ∧ r.id ≠ row.id) ∨ r = row :=
  mem_putRow sound accepts r

@[simp] theorem put_workspaces : (t.put row chunks).workspaces = t.workspaces := by
  simp only [put, putRow]
  split <;> rfl

theorem ids_put (sound : t.Sound) (accepts : t.Accepts row) :
    ((t.put row chunks).files.map (·.id)).Nodup ∧
      ((t.put row chunks).files.map FileRow.key).Nodup := by
  have iff {r : FileRow} (member : r ∈ t.files) := accepts.id_iff_key sound member
  simp only [put, putRow]
  split
  next =>
    -- A replaced row hands down its identity and its key, so both columns stay as they are.
    have ids : (t.replaceFile row).files.map (·.id) = t.files.map (·.id) := by
      simp only [replaceFile, List.map_map]
      refine List.map_congr_left fun r _ => ?_
      by_cases same : r.id = row.id <;> simp [same]
    have keys : (t.replaceFile row).files.map FileRow.key = t.files.map FileRow.key := by
      simp only [replaceFile, List.map_map]
      refine List.map_congr_left fun r member => ?_
      by_cases same : r.id = row.id
      · simp [same, (iff member).mp same]
      · simp [same]
    exact ⟨ids ▸ sound.ids, keys ▸ sound.keys⟩
  next absent =>
    have absent : ∀ r ∈ t.files, r.id ≠ row.id := by simpa using absent
    simp only [addFile, List.map_append, List.map_cons, List.map_nil]
    constructor
    · refine List.nodup_append.mpr ⟨sound.ids, List.nodup_singleton _, ?_⟩
      simp only [List.mem_map, List.mem_singleton]
      rintro _ ⟨r, member, rfl⟩ _ rfl
      exact absent r member
    · refine List.nodup_append.mpr ⟨sound.keys, List.nodup_singleton _, ?_⟩
      simp only [List.mem_map, List.mem_singleton]
      rintro _ ⟨r, member, rfl⟩ _ rfl
      exact fun same => absent r member ((iff member).mpr same)

/-- The written row has just the symbols of its record, and every other row keeps its own. -/
theorem symbolsOf_put (id : Nat) :
    (t.put row chunks).symbolsOf id =
      if id = row.id then SymbolRow.ofRecord row.id row.record else t.symbolsOf id := by
  have ofRecord : ∀ s ∈ SymbolRow.ofRecord row.id row.record, s.file = row.id := by
    simp only [SymbolRow.ofRecord, List.mem_append, List.mem_map]
    rintro s (⟨_, _, rfl⟩ | ⟨_, _, rfl⟩) <;> rfl
  simp only [symbolsOf, put, List.filter_append, List.filter_filter]
  by_cases same : id = row.id
  · subst same
    simp only [if_true]
    rw [List.filter_eq_nil_iff.mpr (by simp), List.filter_eq_self.mpr (by simpa using ofRecord),
      List.nil_append]
  · rw [if_neg same, List.filter_eq_nil_iff (l := SymbolRow.ofRecord _ _) |>.mpr, List.append_nil]
    · refine List.filter_congr fun s _ => ?_
      by_cases own : s.file = id
      · simp [own, same]
      · simp [own]
    · intro s member
      simpa [ofRecord s member] using fun own => same own.symm

/-- The written row has just the written chunks, and every other row keeps its own. -/
theorem chunksOf_put (r : FileRow) :
    (t.put row chunks).chunksOf r =
      if r.id = row.id then (if r.generation = row.generation then chunks else [])
      else t.chunksOf r := by
  simp only [chunksOf, put, List.filter_append, List.filter_filter, List.map_append]
  by_cases same : r.id = row.id
  · simp only [if_pos same]
    rw [List.filter_eq_nil_iff.mpr (by simp +contextual [same]), List.map_nil, List.nil_append]
    -- A row of another generation has none of the written chunks.
    by_cases current : r.generation = row.generation
    · simp [List.filter_map, Function.comp_def, same, current]
    · have other : row.generation ≠ r.generation := fun h => current h.symm
      simp [List.filter_map, Function.comp_def, current, other]
  · have other : row.id ≠ r.id := fun h => same h.symm
    rw [if_neg same]
    rw [List.filter_eq_nil_iff (l := chunks.map _) |>.mpr (by simp [other]), List.map_nil,
      List.append_nil]
    congr 1
    refine List.filter_congr fun c _ => ?_
    by_cases own : c.file = r.id
    · simp [own, same]
    · simp [own]

/-- Writing a file keeps the tables sound. -/
theorem sound_put (sound : t.Sound) (accepts : t.Accepts row) : (t.put row chunks).Sound where
  ids := (ids_put sound accepts).1
  keys := (ids_put sound accepts).2
  below r member := by
    -- The written identity is below the next one, whichever way it is written.
    have next : t.nextId ≤ (t.put row chunks).nextId ∧ row.id < (t.put row chunks).nextId := by
      simp only [put, putRow]
      split
      next any =>
        obtain ⟨present, found, id⟩ := List.any_eq_true.mp any
        have below := sound.below present found
        simp only [beq_iff_eq] at id
        simp only [replaceFile]
        omega
      next absent =>
        rcases accepts.2 with ⟨present, found, id, _⟩ | ⟨fresh, _⟩
        · exact absurd (List.any_eq_true.mpr ⟨present, found, by simpa using id⟩) absent
        · simp only [addFile]
          omega
    rcases (mem_put sound accepts r).mp member with ⟨old, _⟩ | rfl
    · have below := sound.below r old
      omega
    · exact next.2
  columns r member := by
    rcases (mem_put sound accepts r).mp member with ⟨old, _⟩ | rfl
    · exact sound.columns r old
    · exact accepts.1
  chunks c member := by
    simp only [put, List.mem_append, List.mem_filter, List.mem_map, bne_iff_ne] at member
    rcases member with ⟨old, other⟩ | ⟨chunk, _, rfl⟩
    · obtain ⟨r, found, id, generation⟩ := sound.chunks c old
      exact ⟨r, (mem_put sound accepts r).mpr (.inl ⟨found, id ▸ other⟩), id, generation⟩
    · exact ⟨row, (mem_put sound accepts row).mpr (.inr rfl), rfl, rfl⟩
  symbols s member := by
    simp only [put, List.mem_append, List.mem_filter, bne_iff_ne] at member
    rcases member with ⟨old, other⟩ | new
    · obtain ⟨r, found, id⟩ := sound.symbols s old
      exact ⟨r, (mem_put sound accepts r).mpr (.inl ⟨found, id ▸ other⟩), id⟩
    · refine ⟨row, (mem_put sound accepts row).mpr (.inr rfl), ?_⟩
      simp only [SymbolRow.ofRecord, List.mem_append, List.mem_map] at new
      rcases new with ⟨_, _, rfl⟩ | ⟨_, _, rfl⟩ <;> rfl
  listed r member := by
    rw [symbolsOf_put]
    rcases (mem_put sound accepts r).mp member with ⟨old, other⟩ | rfl
    · rw [if_neg other, sound.listed r old]
    · rw [if_pos rfl]
  workspaces := by simpa using sound.workspaces

/-- After a write the file of the key is the written row, and the files of other keys are those of
before. -/
theorem file?_put (sound : t.Sound) (accepts : t.Accepts row) (owner workspace path : String) :
    (t.put row chunks).file? owner workspace path =
      if row.key = (owner, workspace, path) then some row else t.file? owner workspace path := by
  have after : (t.put row chunks).Sound := sound_put sound accepts
  split
  next atKey => exact after.file?_iff.mpr ⟨(mem_put sound accepts row).mpr (.inr rfl), atKey⟩
  next elsewhere =>
    cases before : t.file? owner workspace path with
    | none =>
      rw [file?_eq_none_iff] at before ⊢
      intro r member
      rcases (mem_put sound accepts r).mp member with ⟨old, _⟩ | rfl
      · exact before r old
      · exact elsewhere
    | some r =>
      obtain ⟨member, atKey⟩ := sound.file?_iff.mp before
      refine after.file?_iff.mpr ⟨(mem_put sound accepts r).mpr (.inl ⟨member, fun same => ?_⟩),
        atKey⟩
      exact elsewhere (((accepts.id_iff_key sound member).mp same).symm.trans atKey)

/-- Rows whose keys a write does not concern stay as they are, in their order. -/
theorem filter_put (sound : t.Sound) (accepts : t.Accepts row) {p : String × String × String → Bool}
    (apart : p row.key = false) :
    (t.put row chunks).files.filter (fun r => p r.key) = t.files.filter fun r => p r.key := by
  simp only [put, putRow]
  split
  next =>
    simp only [replaceFile, List.filter_map]
    -- A replaced row has the key of the written one, so both are left out.
    have unmoved : ∀ r ∈ t.files,
        p (if (r.id == row.id) = true then row else r).key = p r.key := by
      intro r member
      by_cases same : r.id = row.id
      · simp [same, (accepts.id_iff_key sound member).mp same]
      · simp [same]
    rw [List.filter_congr (q := fun r => p r.key) unmoved]
    refine (List.map_congr_left fun r kept => ?_).trans (List.map_id _)
    obtain ⟨member, concerned⟩ := List.mem_filter.mp kept
    have other : r.id ≠ row.id := fun same => by
      rw [(accepts.id_iff_key sound member).mp same, apart] at concerned
      cases concerned
    simp [other]
  next => simp [addFile, List.filter_append, apart]

/-! ### Removing files -/

/-- The tables without some files, their chunks and their symbols. -/
def drop (t : Tables) (ids : List Nat) : Tables :=
  { t with
    files := t.files.filter fun r => !ids.contains r.id
    chunks := t.chunks.filter fun c => !ids.contains c.file
    symbols := t.symbols.filter fun s => !ids.contains s.file }

theorem drop_nil : t.drop [] = t := by
  simp [drop]

/-- Files removed one after another are removed. -/
theorem foldl_deleteFile (rows : List FileRow) (t : Tables) :
    rows.foldl (fun t r => t.deleteFile r.id) t = t.drop (rows.map (·.id)) := by
  induction rows generalizing t with
  | nil => simp [drop]
  | cons r rest ih =>
    rw [List.foldl_cons, ih]
    simp only [drop, deleteFile, List.filter_filter, List.map_cons, List.contains_cons,
      Bool.not_or, bne, Bool.and_comm]

variable {ids : List Nat}

theorem mem_drop (r : FileRow) : r ∈ (t.drop ids).files ↔ r ∈ t.files ∧ r.id ∉ ids := by
  simp [drop]

theorem symbolsOf_drop (id : Nat) :
    (t.drop ids).symbolsOf id = if id ∈ ids then [] else t.symbolsOf id := by
  simp only [symbolsOf, drop, List.filter_filter]
  split
  next gone => exact List.filter_eq_nil_iff.mpr (by simp +contextual [gone])
  next kept =>
    refine List.filter_congr fun s _ => ?_
    by_cases own : s.file = id <;> simp [own, kept]

theorem chunksOf_drop (r : FileRow) :
    (t.drop ids).chunksOf r = if r.id ∈ ids then [] else t.chunksOf r := by
  simp only [chunksOf, drop, List.filter_filter]
  split
  next gone =>
    rw [List.filter_eq_nil_iff.mpr (by simp +contextual [gone]), List.map_nil]
  next kept =>
    congr 1
    refine List.filter_congr fun c _ => ?_
    by_cases own : c.file = r.id <;> simp [own, kept]

/-- Removing files keeps the tables sound. -/
theorem sound_drop (sound : t.Sound) : (t.drop ids).Sound where
  ids := sound.ids.sublist (List.filter_sublist.map _)
  keys := sound.keys.sublist (List.filter_sublist.map _)
  below r member := sound.below r ((mem_drop r).mp member).1
  columns r member := sound.columns r ((mem_drop r).mp member).1
  chunks c member := by
    have member : c ∈ t.chunks ∧ c.file ∉ ids := by simpa [drop] using member
    obtain ⟨r, found, id, generation⟩ := sound.chunks c member.1
    exact ⟨r, (mem_drop r).mpr ⟨found, id ▸ member.2⟩, id, generation⟩
  symbols s member := by
    have member : s ∈ t.symbols ∧ s.file ∉ ids := by simpa [drop] using member
    obtain ⟨r, found, id⟩ := sound.symbols s member.1
    exact ⟨r, (mem_drop r).mpr ⟨found, id ▸ member.2⟩, id⟩
  listed r member := by
    obtain ⟨old, kept⟩ := (mem_drop r).mp member
    rw [symbolsOf_drop, if_neg kept, sound.listed r old]
  workspaces := sound.workspaces

/-- After a removal the file of a key is that of before, unless it was removed. -/
theorem file?_drop (sound : t.Sound) (owner workspace path : String) :
    (t.drop ids).file? owner workspace path =
      (t.file? owner workspace path).filter fun r => !ids.contains r.id := by
  cases before : t.file? owner workspace path with
  | none =>
    rw [file?_eq_none_iff] at before
    simp only [Option.filter_none, file?_eq_none_iff]
    exact fun r member => before r ((mem_drop r).mp member).1
  | some r =>
    obtain ⟨member, atKey⟩ := mem_of_file? before
    by_cases gone : r.id ∈ ids
    · simp only [Option.filter_some, List.contains_iff_mem.mpr gone, Bool.not_true,
        Bool.false_eq_true, if_false, file?_eq_none_iff]
      intro r' kept atKey'
      obtain ⟨member', alive⟩ := (mem_drop r').mp kept
      rw [sound.eq_of_key member' member (atKey'.trans atKey.symm)] at alive
      exact alive gone
    · have alive : (!ids.contains r.id) = true := by simpa using gone
      simp only [Option.filter_some, alive, if_true]
      exact (sound_drop sound).file?_iff.mpr ⟨(mem_drop r).mpr ⟨member, gone⟩, atKey⟩

/-! ### Chunks that count -/

/-- The file in whose present generation a chunk is. -/
theorem owner?_iff (sound : t.Sound) {c : ChunkRow} {r : FileRow} :
    t.files.find? (fun r => r.id == c.file && r.generation == c.generation) = some r ↔
      r ∈ t.files ∧ r.id = c.file ∧ r.generation = c.generation := by
  constructor
  · intro found
    have holds := List.find?_some found
    simp only [Bool.and_eq_true, beq_iff_eq] at holds
    exact ⟨List.mem_of_find?_eq_some found, holds⟩
  · rintro ⟨member, id, generation⟩
    cases found : t.files.find? (fun r => r.id == c.file && r.generation == c.generation) with
    | none =>
      have absent := List.find?_eq_none.mp found r member
      simp [id, generation] at absent
    | some r' =>
      have holds := List.find?_some found
      simp only [Bool.and_eq_true, beq_iff_eq] at holds
      -- The first match is the only one.
      rw [sound.eq_of_id (List.mem_of_find?_eq_some found) member (holds.1.trans id.symm)]

/-- The chunks that count of one file are those that its row says. -/
theorem activeChunks_filter (sound : t.Sound) {r : FileRow} (member : r ∈ t.files) :
    t.activeChunks.filter (fun p => p.1.id == r.id) =
      (t.chunks.filter fun c => c.file == r.id && c.generation == r.generation).map (r, ·) := by
  simp only [activeChunks, List.filter_filterMap, ← List.filterMap_eq_map, List.filterMap_filter]
  refine List.filterMap_congr fun c _ => ?_
  by_cases own : c.file = r.id ∧ c.generation = r.generation
  · rw [(owner?_iff sound).mpr ⟨member, own.1.symm, own.2.symm⟩]
    simp [own]
  · have foreign : (c.file == r.id && c.generation == r.generation) = false := by simpa using own
    rw [foreign]
    -- A chunk of another row, or of an earlier generation, is on neither side.
    cases found : t.files.find? (fun r => r.id == c.file && r.generation == c.generation) with
    | none => simp
    | some r' =>
      obtain ⟨member', id, generation⟩ := (owner?_iff sound).mp found
      have other : r'.id ≠ r.id := fun same => by
        rw [sound.eq_of_id member' member same] at id generation
        exact own ⟨id.symm, generation.symm⟩
      simp [other]

/-- Every chunk that counts is one of a file. -/
theorem mem_of_mem_activeChunks {p : FileRow × ChunkRow} (active : p ∈ t.activeChunks) :
    p.1 ∈ t.files := by
  simp only [activeChunks, List.mem_filterMap, Option.map_eq_some_iff] at active
  obtain ⟨c, _, r, found, rfl⟩ := active
  exact List.mem_of_find?_eq_some found

/-- A list put together again from its parts, one for each mark that an item can have. -/
private theorem perm_flatMap_filter {β : Type} (mark : β → Nat) (marks : List Nat) (l : List β)
    (marked : ∀ x ∈ l, mark x ∈ marks) (distinct : marks.Nodup) :
    l.Perm (marks.flatMap fun m => l.filter fun x => mark x == m) := by
  induction marks generalizing l with
  | nil =>
    cases l with
    | nil => exact .refl _
    | cons x l => exact absurd (marked x List.mem_cons_self) List.not_mem_nil
  | cons m marks ih =>
    obtain ⟨fresh, distinct⟩ := List.nodup_cons.mp distinct
    have rest := ih (l.filter fun x => !(mark x == m))
      (fun x kept => by
        have kept := List.mem_filter.mp kept
        have other : mark x ≠ m := by simpa using kept.2
        exact (List.mem_cons.mp (marked x kept.1)).resolve_left other) distinct
    have parts : (marks.flatMap fun n => (l.filter fun x => !(mark x == m)).filter
        fun x => mark x == n) = marks.flatMap fun n => l.filter fun x => mark x == n := by
      refine List.flatMap_congr fun n member => ?_
      rw [List.filter_filter]
      refine List.filter_congr fun x _ => ?_
      have other : n ≠ m := fun same => fresh (same ▸ member)
      by_cases own : mark x = n <;> simp [own, other]
    rw [List.flatMap_cons]
    exact (List.filter_append_perm (fun x => mark x == m) l).symm.trans
      ((parts ▸ rest).append_left _)

/-- The chunks that count are those of all files. -/
theorem activeChunks_perm (sound : t.Sound) :
    t.activeChunks.Perm (t.files.flatMap fun r =>
      (t.chunks.filter fun c => c.file == r.id && c.generation == r.generation).map (r, ·)) := by
  have parts := perm_flatMap_filter (fun p : FileRow × ChunkRow => p.1.id) (t.files.map (·.id))
    t.activeChunks (fun p active => List.mem_map_of_mem (mem_of_mem_activeChunks active)) sound.ids
  rw [List.flatMap_map] at parts
  rwa [List.flatMap_congr fun r member => activeChunks_filter sound member] at parts

end Tables

/-! ## What an index holds of files -/

/-- The record apart from its times and the number of writes. -/
def IndexedFile.undated (f : IndexedFile) : IndexedFile :=
  { f with modifiedAt := none, indexedAt := default, generation := 0 }

/-- The row apart from its identity, its times and the number of writes. -/
def FileRow.undated (r : FileRow) : FileRow :=
  { r with id := 0, record := r.record.undated, indexedAt := default, generation := 0 }

/-- The chunk apart from its embedding. -/
def IndexedChunk.bare (c : IndexedChunk) : IndexedChunk :=
  { c with embedding := ⟨.fallback, [], ""⟩ }

/-- What the tables hold of a file. -/
structure Holding where
  row : FileRow
  chunks : List IndexedChunk
  symbols : List (String × SymbolUse)

/-- The holding apart from the embeddings of its chunks. -/
def Holding.bare (h : Holding) : Holding :=
  { h with chunks := h.chunks.map IndexedChunk.bare }

@[simp] theorem FileRow.undated_key (r : FileRow) : r.undated.key = r.key :=
  rfl

namespace Tables

variable {t t' : Tables} {owner workspace : String}

/-- What the tables hold of the file of a row. -/
def holding (t : Tables) (r : FileRow) : Holding :=
  ⟨r.undated, t.chunksOf r, (t.symbolsOf r.id).map fun s => (s.symbol, s.use)⟩

/-- The files of a workspace. -/
def filesIn (t : Tables) (owner workspace : String) : List FileRow :=
  t.files.filter fun r => r.owner == owner && r.workspace == workspace

/-- What the tables hold of the files of a workspace. -/
def holdings (t : Tables) (owner workspace : String) : List Holding :=
  (t.filesIn owner workspace).map t.holding

theorem mem_filesIn {r : FileRow} : r ∈ t.filesIn owner workspace ↔
    r ∈ t.files ∧ r.owner = owner ∧ r.workspace = workspace := by
  simp [filesIn]

/-- The symbols of a file are those of its record. -/
theorem holding_symbols (sound : t.Sound) {r : FileRow} (member : r ∈ t.files) :
    (t.holding r).symbols =
      (SymbolRow.ofRecord 0 r.record).map fun s => (s.symbol, s.use) := by
  simp [holding, sound.listed r member, SymbolRow.ofRecord, Function.comp_def]

/-- No file is held twice. -/
theorem nodup_holdings (sound : t.Sound) (part : Holding → Holding)
    (row : ∀ h, (part h).row = h.row) : ((t.holdings owner workspace).map part).Nodup := by
  refine List.Nodup.of_map (fun h => h.row.key) ?_
  -- The part keeps the row, and the row its key.
  have keys : ((t.holdings owner workspace).map part).map (fun h => h.row.key) =
      (t.filesIn owner workspace).map FileRow.key := by
    simp [holdings, Function.comp_def, row, holding]
  rw [keys]
  exact sound.keys.sublist (List.filter_sublist.map _)

/-- Workspaces of which the same is held hold it in some order. -/
theorem holdings_perm (sound : t.Sound) (sound' : t'.Sound) (part : Holding → Holding)
    (row : ∀ h, (part h).row = h.row)
    (same : ∀ h, h ∈ (t.holdings owner workspace).map part ↔
      h ∈ (t'.holdings owner workspace).map part) :
    ((t.holdings owner workspace).map part).Perm ((t'.holdings owner workspace).map part) :=
  (List.perm_ext_iff_of_nodup (nodup_holdings sound part row)
    (nodup_holdings sound' part row)).mpr same

end Tables

end CodeAtlas
