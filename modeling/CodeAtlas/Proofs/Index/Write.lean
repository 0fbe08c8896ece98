import CodeAtlas.Index.Write
import CodeAtlas.Proofs.Index.Table
import CodeAtlas.Proofs.Index.Transaction

/-!
# What the writes of an index do

The actions of each write are folded into one change of the tables. A write of a file is
`Tables.put` of the row that `Tables.rowFor` gives, a removal is `Tables.drop`; so the lemmas about
these two say everything about the tables after a write.
-/

namespace CodeAtlas

namespace Tables

/-- The row that a write of a file at a time puts into the tables. -/
def rowFor (t : Tables) (file : IndexedFile) (now : Timestamp) : FileRow :=
  match t.file? file.owner file.workspace file.path with
  | some present => FileRow.ofRecord present.id file (present.generation + 1) now
  | none => FileRow.ofRecord t.nextId file 1 now

/-- The content of the file stands in the tables and nothing forces it to be written. -/
def isCurrent (t : Tables) (file : IndexedFile) (force : Bool) : Bool :=
  match t.file? file.owner file.workspace file.path with
  | some present => present.contentHash == file.contentHash && !force
  | none => false

variable {t : Tables} {file : IndexedFile} {now : Timestamp}

@[simp] theorem rowFor_key : (t.rowFor file now).key = (file.owner, file.workspace, file.path) := by
  simp only [rowFor]
  split <;> rfl

theorem rowFor_record : (t.rowFor file now).record =
    { file with generation := (t.rowFor file now).generation, indexedAt := now } := by
  simp only [rowFor]
  split <;> rfl

theorem rowFor_columns : t.rowFor file now = FileRow.ofRecord (t.rowFor file now).id
    (t.rowFor file now).record (t.rowFor file now).generation (t.rowFor file now).indexedAt := by
  simp only [rowFor]
  split <;> rfl

/-- A current file stands in the tables with its content. -/
theorem isCurrent_hash {force : Bool} (current : t.isCurrent file force = true) :
    (t.file? file.owner file.workspace file.path).map (·.contentHash) = some file.contentHash := by
  simp only [isCurrent] at current
  split at current
  next present found =>
    simp only [Bool.and_eq_true, beq_iff_eq] at current
    rw [found, Option.map_some, current.1]
  · cases current

theorem rowFor_indexedAt : (t.rowFor file now).indexedAt = now := by
  simp only [rowFor]
  split <;> rfl

theorem rowFor_paths : (t.rowFor file now).path = file.path ∧
    (t.rowFor file now).relativePath = file.relativePath := by
  simp only [rowFor]
  split <;> exact ⟨rfl, rfl⟩

theorem accepts_rowFor : t.Accepts (t.rowFor file now) := by
  refine ⟨rowFor_columns, ?_⟩
  cases found : t.file? file.owner file.workspace file.path with
  -- The row keeps the identity of the one that it replaces.
  | some present =>
    obtain ⟨member, atKey⟩ := mem_of_file? found
    exact .inl ⟨present, member, by simp [rowFor, found, FileRow.ofRecord],
      by rw [atKey, rowFor_key]⟩
  -- There is no other row for the file, and the identity is a fresh one.
  | none =>
    refine .inr ⟨by simp [rowFor, found, FileRow.ofRecord], fun r member => ?_⟩
    rw [rowFor_key]
    exact file?_eq_none_iff.mp found r member

/-- No chunk belongs to the generation of a row that is yet to be written. -/
theorem rowFor_generation_ne (sound : t.Sound) {c : ChunkRow} (member : c ∈ t.chunks)
    (own : c.file = (t.rowFor file now).id) : c.generation ≠ (t.rowFor file now).generation := by
  obtain ⟨r, found, id, generation⟩ := sound.chunks c member
  rw [← generation]
  cases present : t.file? file.owner file.workspace file.path with
  -- The generation has gone up by one.
  | some r' =>
    have same : r = r' := sound.eq_of_id found (mem_of_file? present).1
      (by simpa [rowFor, present, FileRow.ofRecord] using id.trans own)
    simp [rowFor, present, FileRow.ofRecord, same]
  -- Nothing belongs to a fresh identity.
  | none =>
    have below := sound.below r found
    have fresh : r.id = t.nextId := by
      simpa [rowFor, present, FileRow.ofRecord] using id.trans own
    omega

end Tables

namespace Index

open Tables

/-- The numbers of a file and its chunks that a table has to hold. -/
def numbersOf (file : IndexedFile) (chunks : List IndexedChunk) : List Int :=
  file.lineCount :: chunks.flatMap fun c => [c.startLine, c.endLine]

/-- A table can hold the numbers of a file and its chunks. -/
def Storable (file : IndexedFile) (chunks : List IndexedChunk) : Prop :=
  (numbersOf file chunks).all Action.fits = true

instance (file : IndexedFile) (chunks : List IndexedChunk) : Decidable (Storable file chunks) :=
  inferInstanceAs (Decidable (_ = true))

/-! ### The actions of a write of a file -/

section Actions

variable {t : Tables} (id generation : Nat) (file : IndexedFile)

private theorem result_insertChunks (chunks : List IndexedChunk) (rest : List Action) (t : Tables) :
    Action.result (chunks.map (fun c => Action.bind .insertChunks [c.startLine, c.endLine]
        (·.addChunk ⟨id, generation, c⟩)) ++ rest) t =
      if (chunks.flatMap fun c => [c.startLine, c.endLine]).all Action.fits then
        Action.result rest { t with chunks := t.chunks ++ chunks.map (ChunkRow.mk id generation) }
      else .error .oversized := by
  induction chunks generalizing t with
  | nil => simp
  | cons c chunks ih =>
    rw [List.map_cons, List.cons_append, Action.result_bind, ih, List.flatMap_cons, List.all_append]
    -- The first number that does not fit refuses the rest.
    by_cases first : [c.startLine, c.endLine].all Action.fits = true
    · rw [if_pos first, first, Bool.true_and]
      simp [addChunk]
    · rw [if_neg first, Bool.not_eq_true _ |>.mp first, Bool.false_and, if_neg Bool.false_ne_true]

private theorem result_insertSymbols (rows : List SymbolRow) (t : Tables) :
    Action.result (rows.map fun row => .apply .insertSymbols (·.addSymbol row)) t =
      .ok { t with symbols := t.symbols ++ rows } := by
  induction rows generalizing t with
  | nil => simp
  | cons row rows ih =>
    rw [List.map_cons, Action.result_apply, ih]
    simp [addSymbol]

/-- The parts of a file replace those of its earlier generations. -/
theorem result_partActions (chunks : List IndexedChunk) (t : Tables) :
    Action.result (partActions id generation file chunks) t =
      if (chunks.flatMap fun c => [c.startLine, c.endLine]).all Action.fits then
        .ok { t with
          chunks := (t.chunks ++ chunks.map (ChunkRow.mk id generation)).filter
            fun c => c.file != id || c.generation == generation
          symbols := t.symbols.filter (fun s => s.file != id) ++ SymbolRow.ofRecord id file }
      else .error .oversized := by
  rw [partActions, List.append_assoc, List.cons_append, Action.result_look, result_insertChunks]
  simp only [List.cons_append, List.nil_append, Action.result_apply, Action.result_look,
    result_insertSymbols, dropOtherGenerations, dropSymbols]

end Actions

section Plans

variable {t : Tables} {file : IndexedFile} {chunks : List IndexedChunk} {force : Bool}
  {now : Timestamp}

/-- The rows of a file that is written, and its parts, make up the tables with the file put in. -/
private theorem put_rowFor (sound : t.Sound) :
    t.put (t.rowFor file now) chunks =
      { t.putRow (t.rowFor file now) with
        chunks := (t.chunks ++ chunks.map (ChunkRow.mk (t.rowFor file now).id
            (t.rowFor file now).generation)).filter fun c =>
          c.file != (t.rowFor file now).id || c.generation == (t.rowFor file now).generation
        symbols := t.symbols.filter (fun s => s.file != (t.rowFor file now).id) ++
          SymbolRow.ofRecord (t.rowFor file now).id file } := by
  -- The chunks that were there are of other generations.
  have old : t.chunks.filter (fun c => c.file != (t.rowFor file now).id) =
      t.chunks.filter fun c =>
        c.file != (t.rowFor file now).id || c.generation == (t.rowFor file now).generation := by
    refine List.filter_congr fun c member => ?_
    by_cases own : c.file = (t.rowFor file now).id
    · simp [own, rowFor_generation_ne sound member own]
    · simp [own]
  -- Those that are inserted are of this one.
  have new : (chunks.map (ChunkRow.mk (t.rowFor file now).id (t.rowFor file now).generation)).filter
      (fun c => c.file != (t.rowFor file now).id ||
        c.generation == (t.rowFor file now).generation) =
      chunks.map (ChunkRow.mk (t.rowFor file now).id (t.rowFor file now).generation) :=
    List.filter_eq_self.mpr (by simp)
  have symbols : SymbolRow.ofRecord (t.rowFor file now).id (t.rowFor file now).record =
      SymbolRow.ofRecord (t.rowFor file now).id file := by
    rw [rowFor_record]
    rfl
  rw [put, List.filter_append, old, new, symbols]

/-- The row is written first, in whatever way, and its parts follow. -/
private theorem result_written (file : IndexedFile) (chunks : List IndexedChunk) (now : Timestamp)
    (sound : t.Sound) (statement : Statement) (effect : Tables → Tables)
    (writes : effect t = t.putRow (t.rowFor file now)) :
    Action.result ([.look .findFile, .stamp,
        .bind statement [(t.rowFor file now).lineCount] effect] ++
        partActions (t.rowFor file now).id (t.rowFor file now).generation file chunks) t =
      if Storable file chunks then .ok (t.put (t.rowFor file now) chunks)
      else .error .oversized := by
  have lines : (t.rowFor file now).lineCount = file.lineCount := by
    rw [rowFor_columns, rowFor_record]
    rfl
  -- Writing the row leaves the parts to what follows.
  have kept : (t.putRow (t.rowFor file now)).chunks = t.chunks ∧
      (t.putRow (t.rowFor file now)).symbols = t.symbols := by
    simp only [putRow]
    split <;> exact ⟨rfl, rfl⟩
  rw [put_rowFor sound]
  simp only [List.cons_append, List.nil_append, Action.result_look, Action.result_stamp,
    Action.result_bind, result_partActions, writes, kept, lines, Storable, numbersOf,
    List.all_cons, List.all_nil, Bool.and_true]
  by_cases first : Action.fits file.lineCount = true
  · simp only [first, if_true, Bool.true_and]
  · simp only [first, Bool.false_and, Bool.false_eq_true, if_false]

/-- The actions of a write of a file put it into the tables, unless its content stands there or its
numbers are too large. -/
theorem result_fileActions (sound : t.Sound) :
    Action.result (fileActions file chunks force t now).1 t =
      if t.isCurrent file force then .ok t
      else if Storable file chunks then .ok (t.put (t.rowFor file now) chunks)
      else .error .oversized := by
  cases found : t.file? file.owner file.workspace file.path with
  | some present =>
    have row : t.rowFor file now =
        FileRow.ofRecord present.id file (present.generation + 1) now := by
      simp only [rowFor, found]
    have any : t.files.any (fun r => r.id == present.id) = true :=
      List.any_eq_true.mpr ⟨present, (mem_of_file? found).1, by simp⟩
    by_cases same : (present.contentHash == file.contentHash && !force) = true
    · simp [fileActions, isCurrent, found, same]
    · have written := result_written file chunks now sound
        .updateFile (·.replaceFile (t.rowFor file now))
        (by simp only [putRow, row, FileRow.ofRecord, any, if_true])
      simpa only [fileActions, isCurrent, found, same, row, Bool.false_eq_true, if_false]
        using written
  | none =>
    have row : t.rowFor file now = FileRow.ofRecord t.nextId file 1 now := by
      simp only [rowFor, found]
    have any : t.files.any (fun r => r.id == t.nextId) = false := by
      simp only [List.any_eq_false, beq_iff_eq]
      exact fun r member => Nat.ne_of_lt (sound.below r member)
    have written := result_written file chunks now sound
      .insertFile (·.addFile (t.rowFor file now))
      (by simp only [putRow, row, FileRow.ofRecord, any, Bool.false_eq_true, if_false])
    simpa only [fileActions, isCurrent, found, row, Bool.false_eq_true, if_false] using written

/-- The answer of a write of a file says whether it stood in the tables. -/
theorem fileActions_answer : (fileActions file chunks force t now).2 =
    if t.isCurrent file force then .unchanged
    else if (t.file? file.owner file.workspace file.path).isSome then .updated else .created := by
  cases found : t.file? file.owner file.workspace file.path with
  | some present =>
    by_cases same : (present.contentHash == file.contentHash && !force) = true <;>
      simp [fileActions, isCurrent, found, same]
  | none => simp [fileActions, isCurrent, found]

/-! ### Removals and structures -/

/-- A removal drops the files that are not live. -/
theorem result_sweep (owner workspace : String) (live : List String) :
    Action.result ([.look .selectWorkspaceFiles, .look .deleteFiles] ++
        (doomed owner workspace live t).map fun r => .apply .deleteFiles (·.deleteFile r.id)) t =
      .ok (t.drop ((doomed owner workspace live t).map (·.id))) := by
  rw [← foldl_deleteFile]
  simp only [List.cons_append, List.nil_append, Action.result_look]
  generalize doomed owner workspace live t = rows
  induction rows generalizing t with
  | nil => rfl
  | cons r rest ih => rw [List.map_cons, Action.result_apply, ih, List.foldl_cons]

/-- Saving a structure leaves files, chunks and symbols alone. -/
theorem putWorkspace_files (row : WorkspaceRow) : ∃ workspaces, t.putWorkspace row =
    { t with workspaces } := by
  simp only [putWorkspace]
  split <;> exact ⟨_, rfl⟩

end Plans

end Index

end CodeAtlas
