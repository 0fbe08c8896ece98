import CodeAtlas.Proofs.Index.Calls

/-!
# What happened between two states of the tables

Files are told apart by their keys, and each write of a file goes up one generation. So the tables
before and after show which rows were created or replaced and which are gone, whatever the order of
the writes.

## Main results

`Tables.Overwrites.written_perm` and `Tables.Overwrites.removed_perm`: after some writes, each to
another file, and one removal, the difference is just these writes and this removal. Of a file that
neither concerns all stays the same (`Tables.sameAt_put`, `Tables.sameAt_drop`).
-/

namespace CodeAtlas

namespace Tables

/-- The rows that were created or replaced: before, there was no row of the key in the generation.
-/
def writtenSince (before after : Tables) : List FileRow :=
  after.files.filter fun r =>
    (before.file? r.owner r.workspace r.path).map (·.generation) != some r.generation

/-- The rows whose keys are gone. -/
def removedSince (before after : Tables) : List FileRow :=
  before.files.filter fun r => (after.file? r.owner r.workspace r.path).isNone

/-- Some rows, each of another key, were written into the earlier tables, and all others are left.
-/
structure Overwrites (before : Tables) (rows : List FileRow) (t : Tables) : Prop where
  sound : t.Sound
  keys : (rows.map FileRow.key).Nodup
  members : ∀ r, r ∈ t.files ↔ r ∈ rows ∨ r ∈ before.files ∧ r.key ∉ rows.map FileRow.key
  later : ∀ r ∈ rows,
    (before.file? r.owner r.workspace r.path).map (·.generation) ≠ some r.generation

variable {before t : Tables} {rows : List FileRow}

theorem rowFor_later (t : Tables) (file : IndexedFile) (now : Timestamp) :
    (t.file? file.owner file.workspace file.path).map (·.generation) ≠
      some (t.rowFor file now).generation := by
  cases found : t.file? file.owner file.workspace file.path with
  | none => simp
  | some present =>
    have next : (t.rowFor file now).generation = present.generation + 1 := by
      rw [rowFor, found]
      rfl
    simp [next]

namespace Overwrites

theorem refl (sound : t.Sound) : Overwrites t [] t where
  sound := sound
  keys := List.nodup_nil
  members := by simp
  later _ member := absurd member List.not_mem_nil

/-- A file that is not among the written ones is that of before. -/
theorem file?_eq (sound : before.Sound) (writes : Overwrites before rows t)
    {owner workspace path : String} (other : (owner, workspace, path) ∉ rows.map FileRow.key) :
    t.file? owner workspace path = before.file? owner workspace path := by
  refine Option.ext fun r => ?_
  rw [writes.sound.file?_iff, sound.file?_iff, writes.members]
  constructor
  · rintro ⟨written | ⟨old, _⟩, atKey⟩
    · exact absurd (atKey ▸ List.mem_map_of_mem written) other
    · exact ⟨old, atKey⟩
  · rintro ⟨old, atKey⟩
    exact ⟨.inr ⟨old, atKey.symm ▸ other⟩, atKey⟩

/-- One more file is written. -/
theorem put (sound : before.Sound) (writes : Overwrites before rows t) {file : IndexedFile}
    (now : Timestamp) (chunks : List IndexedChunk)
    (fresh : (file.owner, file.workspace, file.path) ∉ rows.map FileRow.key) :
    Overwrites before (rows ++ [t.rowFor file now]) (t.put (t.rowFor file now) chunks) where
  sound := sound_put writes.sound accepts_rowFor
  keys := by
    rw [List.map_append, List.map_singleton, rowFor_key]
    refine List.nodup_append.mpr ⟨writes.keys, List.nodup_singleton _, ?_⟩
    rintro key among _ one rfl
    exact fresh (List.mem_singleton.mp one ▸ among)
  members r := by
    have key : (t.rowFor file now).key = (file.owner, file.workspace, file.path) := rowFor_key
    have apart : ∀ r ∈ rows, r.key ≠ (t.rowFor file now).key := fun r among same =>
      fresh (key ▸ same ▸ List.mem_map_of_mem among)
    rw [mem_put writes.sound accepts_rowFor]
    simp only [List.mem_append, List.mem_singleton, List.map_append, List.map_cons, List.map_nil]
    constructor
    · rintro (⟨old, other⟩ | rfl)
      · have other := (accepts_rowFor.id_iff_key writes.sound old).not.mp other
        rcases (writes.members r).mp old with written | ⟨first, unwritten⟩
        · exact .inl (.inl written)
        · exact .inr ⟨first, not_or.mpr ⟨unwritten, other⟩⟩
      · exact .inl (.inr rfl)
    · rintro ((written | rfl) | ⟨first, unwritten⟩)
      · have old := (writes.members r).mpr (.inl written)
        exact .inl ⟨old, (accepts_rowFor.id_iff_key writes.sound old).not.mpr (apart r written)⟩
      · exact .inr rfl
      · obtain ⟨unwritten, other⟩ := not_or.mp unwritten
        have old := (writes.members r).mpr (.inr ⟨first, unwritten⟩)
        exact .inl ⟨old, (accepts_rowFor.id_iff_key writes.sound old).not.mpr other⟩
  later r member := by
    rcases List.mem_append.mp member with written | new
    · exact writes.later r written
    · -- The file was as it is before this write, and goes up one generation now.
      have key : (t.rowFor file now).key = (file.owner, file.workspace, file.path) := rowFor_key
      have unwritten := writes.file?_eq sound fresh
      rw [List.mem_singleton.mp new]
      simp only [FileRow.key, Prod.mk.injEq] at key
      rw [key.1, key.2.1, key.2.2, ← unwritten]
      exact rowFor_later t file now

variable {gone : List FileRow}

theorem mem_left (writes : Overwrites before rows t) (among : gone ⊆ t.files) {r : FileRow} :
    r ∈ (t.drop (gone.map (·.id))).files ↔ r ∈ t.files ∧ r ∉ gone := by
  rw [mem_drop]
  refine and_congr_right fun member => not_congr ⟨fun removed => ?_, List.mem_map_of_mem⟩
  obtain ⟨r', found, same⟩ := List.mem_map.mp removed
  exact writes.sound.eq_of_id (among found) member same ▸ found

/-- After a removal of rows that were not written, the written rows are the rows that differ. -/
theorem written_perm (sound : before.Sound) (writes : Overwrites before rows t)
    (among : gone ⊆ t.files) (spared : ∀ r ∈ rows, r ∉ gone) :
    (before.writtenSince (t.drop (gone.map (·.id)))).Perm rows := by
  have files : (t.drop (gone.map (·.id))).files.Nodup := .of_map _ (sound_drop writes.sound).ids
  refine (List.perm_ext_iff_of_nodup (files.filter _) (.of_map _ writes.keys)).mpr fun r => ?_
  rw [List.mem_filter, writes.mem_left among, writes.members, bne_iff_ne]
  constructor
  · rintro ⟨⟨written | ⟨old, _⟩, _⟩, other⟩
    · exact written
    · -- A row of before is still in its generation.
      rw [sound.file?_iff.mpr ⟨old, rfl⟩] at other
      exact absurd rfl other
  · intro written
    exact ⟨⟨.inl written, spared r written⟩, writes.later r written⟩

/-- The removed rows are those whose keys are gone. -/
theorem removed_perm (sound : before.Sound) (writes : Overwrites before rows t)
    (among : gone ⊆ t.files) (spared : ∀ r ∈ rows, r ∉ gone) (nodup : gone.Nodup) :
    (before.removedSince (t.drop (gone.map (·.id)))).Perm gone := by
  have files : before.files.Nodup := .of_map _ sound.ids
  refine (List.perm_ext_iff_of_nodup (files.filter _) nodup).mpr fun r => ?_
  rw [List.mem_filter, Option.isNone_iff_eq_none, file?_eq_none_iff]
  constructor
  · rintro ⟨old, lost⟩
    by_contra left
    -- Under the key of a row of before there is that row or the one written over it.
    by_cases written : r.key ∈ rows.map FileRow.key
    · obtain ⟨r', new, atKey⟩ := List.mem_map.mp written
      have present := (writes.members r').mpr (.inl new)
      exact lost r' ((writes.mem_left among).mpr ⟨present, spared r' new⟩) atKey
    · have present := (writes.members r).mpr (.inr ⟨old, written⟩)
      exact lost r ((writes.mem_left among).mpr ⟨present, left⟩) rfl
  · intro removed
    have present := among removed
    refine ⟨?_, fun r' left atKey => ?_⟩
    · rcases (writes.members r).mp present with written | ⟨old, _⟩
      · exact absurd removed (spared r written)
      · exact old
    · obtain ⟨member, kept⟩ := (writes.mem_left among).mp left
      exact kept (writes.sound.eq_of_key member present atKey ▸ removed)

end Overwrites

/-! ### What stays the same -/

/-- A file is the same in both tables: its row, its chunks and its symbols. -/
structure SameAt (owner workspace path : String) (t t' : Tables) : Prop where
  file : t'.file? owner workspace path = t.file? owner workspace path
  chunks : ∀ r, t.file? owner workspace path = some r → t'.chunksOf r = t.chunksOf r
  symbols : ∀ r, t.file? owner workspace path = some r → t'.symbolsOf r.id = t.symbolsOf r.id

variable {t' t'' : Tables} {owner workspace path : String}

theorem SameAt.of_eq (files : t'.files = t.files) (chunks : t'.chunks = t.chunks)
    (symbols : t'.symbols = t.symbols) : SameAt owner workspace path t t' where
  file := by rw [file?, file?, files]
  chunks r _ := by rw [chunksOf, chunksOf, chunks]
  symbols r _ := by rw [symbolsOf, symbolsOf, symbols]

theorem SameAt.trans (first : SameAt owner workspace path t t')
    (second : SameAt owner workspace path t' t'') : SameAt owner workspace path t t'' where
  file := second.file.trans first.file
  chunks r found := (second.chunks r (first.file.trans found)).trans (first.chunks r found)
  symbols r found := (second.symbols r (first.file.trans found)).trans (first.symbols r found)

theorem sameAt_put (sound : t.Sound) {row : FileRow} {chunks : List IndexedChunk}
    (accepts : t.Accepts row) (other : row.key ≠ (owner, workspace, path)) :
    SameAt owner workspace path t (t.put row chunks) := by
  have apart {r : FileRow} (found : t.file? owner workspace path = some r) : r.id ≠ row.id := by
    obtain ⟨member, atKey⟩ := mem_of_file? found
    intro same
    exact other (((accepts.id_iff_key sound member).mp same).symm.trans atKey)
  refine ⟨by rw [file?_put sound accepts, if_neg other], fun r found => ?_, fun r found => ?_⟩
  · rw [chunksOf_put, if_neg (apart found)]
  · rw [symbolsOf_put, if_neg (apart found)]

theorem sameAt_drop (sound : t.Sound) {ids : List Nat}
    (spared : ∀ r, t.file? owner workspace path = some r → r.id ∉ ids) :
    SameAt owner workspace path t (t.drop ids) := by
  refine ⟨?_, fun r found => ?_, fun r found => ?_⟩
  · rw [file?_drop sound]
    cases found : t.file? owner workspace path with
    | none => rfl
    | some r => simp [spared r found]
  · rw [chunksOf_drop, if_neg (spared r found)]
  · rw [symbolsOf_drop, if_neg (spared r found)]

end Tables

end CodeAtlas
