import CodeAtlas.Proofs.Index.Calls

/-!
# Histories of an index

A history is any sequence of writes, each with the faults that it meets. It leaves behind an index
and a log of what every write answered. From the log alone `WriteLog.written` tells what of each
file was last written, and how often since the file was added.

## Main results

`replay_settled` and `replay_shows` follow by induction on the history: the tables hang together,
and they show of each file just what the log tells.
-/

namespace CodeAtlas

/-- A write that is called some time after the call before it, and what fails during it. The storage
can always undo a transaction. -/
structure IndexCall where
  write : IndexWrite
  faults : Faults
  undoable : faults.Undoable
  /-- The microseconds by which the clock moves before the call. -/
  pause : Int := 0

/-- Writes with what they answered, the latest first. -/
abbrev WriteLog := List (IndexWrite × Except Failure IndexWrite.Answer)

/-- A file as it was last written, and how often it was written since it was added. -/
structure Written where
  file : IndexedFile
  chunks : List IndexedChunk
  times : Nat

/-- What tells files apart: owner, workspace and path. -/
def IndexedFile.key (f : IndexedFile) : String × String × String :=
  (f.owner, f.workspace, f.path)

/-- What a write leaves of the file of a key, by what it answered. -/
def IndexWrite.leaves (key : String × String × String) (before : Option Written) :
    IndexWrite → Except Failure IndexWrite.Answer → Option Written
  | .file f chunks _, .ok (.outcome outcome) =>
    if f.key = key ∧ outcome ≠ .unchanged then some ⟨f, chunks, before.elim 0 (·.times) + 1⟩
    else before
  | .removal owner workspace live, .ok _ =>
    if key.1 = owner ∧ key.2.1 = workspace ∧ key.2.2 ∉ live then none else before
  | _, _ => before

/-- A write that was refused leaves everything. -/
@[simp] theorem IndexWrite.leaves_error {key : String × String × String} {before : Option Written}
    {w : IndexWrite} {f : Failure} : w.leaves key before (.error f) = before := by
  cases w <;> rfl

/-- What a log leaves of the file of a key. -/
def WriteLog.written (key : String × String × String) : WriteLog → Option Written
  | [] => none
  | (w, answer) :: earlier => w.leaves key (written key earlier) answer

/-- The chunks of a file as they were last written. -/
def WriteLog.chunksOf (log : WriteLog) (key : String × String × String) : List IndexedChunk :=
  (log.written key).elim [] (·.chunks)

namespace Index

/-- The index after some calls on an empty one, with what they answered. -/
def replay (clock : Int) : List IndexCall → WriteLog × Index
  | [] => ([], { clock })
  | c :: earlier =>
    let (log, ix) := replay clock earlier
    let (answer, ix) := c.write.run c.faults { ix with clock := ix.clock + c.pause }
    ((c.write, answer) :: log, ix)

end Index

/-- The tables have of each file just what a log leaves of it. -/
structure Tables.Shows (t : Tables) (log : WriteLog) : Prop where
  absent {owner workspace path : String} (missing : t.file? owner workspace path = none) :
    log.written (owner, workspace, path) = none
  present {owner workspace path : String} {r : FileRow}
    (found : t.file? owner workspace path = some r) :
    ∃ file, log.written (owner, workspace, path) = some ⟨file, t.chunksOf r, r.generation⟩ ∧
      r.record = { file with generation := r.generation, indexedAt := r.indexedAt }

/-- Only what a log leaves of the files counts. -/
theorem Tables.Shows.congr {t : Tables} {log log' : WriteLog} (shows_ : t.Shows log)
    (same : ∀ key, log'.written key = log.written key) : t.Shows log' where
  absent missing := (same _).trans (shows_.absent missing)
  present found := by
    obtain ⟨file, written, record⟩ := shows_.present found
    exact ⟨file, (same _).trans written, record⟩

namespace IndexWrite

open Index Tables

variable {t : Tables} {log : WriteLog} {now : Timestamp}

/-- A written file is what the log then says of it; nothing changes for the others. -/
theorem shows_put (sound : t.Sound) (shows_ : t.Shows log) {f : IndexedFile}
    {chunks : List IndexedChunk} {force : Bool} (stale : t.isCurrent f force = false) :
    (t.put (t.rowFor f now) chunks).Shows ((.file f chunks force,
      .ok (.outcome (fileActions f chunks force t now).2)) :: log) := by
  -- A file that is not current is created or updated.
  have outcome : (fileActions f chunks force t now).2 ≠ .unchanged := by
    rw [fileActions_answer, stale]
    simp only [Bool.false_eq_true, if_false]
    split <;> simp
  have accepts : t.Accepts (t.rowFor f now) := accepts_rowFor
  constructor
  · intro owner workspace path missing
    rw [file?_put sound accepts, rowFor_key] at missing
    split at missing
    · cases missing
    next elsewhere =>
      rw [WriteLog.written, leaves, if_neg (fun own => elsewhere own.1)]
      exact shows_.absent missing
  · intro owner workspace path r found
    rw [file?_put sound accepts, rowFor_key] at found
    split at found
    next atKey =>
      cases found
      -- The generation counts on from the writes before, or starts at one.
      have generation : ((log.written (owner, workspace, path)).elim 0 (·.times)) + 1 =
          (t.rowFor f now).generation := by
        cases atKey
        cases before : t.file? f.owner f.workspace f.path with
        | none =>
          rw [shows_.absent before]
          simp [rowFor, before, FileRow.ofRecord]
        | some present =>
          obtain ⟨_, written, _⟩ := shows_.present before
          rw [written]
          simp [rowFor, before, FileRow.ofRecord]
      refine ⟨f, ?_, ?_⟩
      · rw [WriteLog.written, leaves, if_pos ⟨atKey, outcome⟩, generation, chunksOf_put,
          if_pos rfl, if_pos rfl]
      · rw [rowFor_indexedAt]
        exact rowFor_record
    next elsewhere =>
      obtain ⟨file, written, record⟩ := shows_.present found
      obtain ⟨member, atKey⟩ := mem_of_file? found
      have other : r.id ≠ (t.rowFor f now).id := fun same => by
        rw [accepts.id_iff_key sound member, atKey, rowFor_key] at same
        exact elsewhere same.symm
      refine ⟨file, ?_, record⟩
      rw [WriteLog.written, leaves, if_neg (fun own => elsewhere own.1), written, chunksOf_put,
        if_neg other]

/-- Removed files are gone for the log too; nothing changes for the others. -/
theorem shows_drop (sound : t.Sound) (shows_ : t.Shows log) {owner workspace : String}
    {live : List String} {answer : Answer} :
    (t.drop ((doomed owner workspace live t).map (·.id))).Shows
      ((.removal owner workspace live, .ok answer) :: log) := by
  constructor
  · intro owner' workspace' path missing
    rw [file?_drop sound] at missing
    simp only [WriteLog.written, leaves]
    split
    · rfl
    next spared =>
      cases before : t.file? owner' workspace' path with
      | none => exact shows_.absent before
      | some r =>
        obtain ⟨member, atKey⟩ := mem_of_file? before
        cases atKey
        -- A file that the removal spared cannot be missing now.
        rw [← mem_doomed sound member] at spared
        have kept : (!((doomed owner workspace live t).map (·.id)).contains r.id) = true := by
          simpa using spared
        rw [before, Option.filter_some, if_pos kept] at missing
        cases missing
  · intro owner' workspace' path r found
    rw [file?_drop sound, Option.filter_eq_some_iff] at found
    obtain ⟨before, spared⟩ := found
    obtain ⟨member, atKey⟩ := mem_of_file? before
    cases atKey
    have spared : r.id ∉ (doomed owner workspace live t).map (·.id) := by simpa using spared
    obtain ⟨file, written, record⟩ := shows_.present before
    refine ⟨file, ?_, record⟩
    rw [mem_doomed sound member] at spared
    rw [WriteLog.written, leaves, if_neg spared, written, chunksOf_drop, if_neg]
    rwa [mem_doomed sound member]

/-- What is done to the tables is what the log then says. -/
theorem shows_of_result (sound : t.Sound) (shows_ : t.Shows log) (w : IndexWrite) {t' : Tables}
    (done : Action.result (w.plan t now).1 t = .ok t') :
    t'.Shows ((w, .ok (w.plan t now).2) :: log) := by
  cases w with
  | file f chunks force =>
    rw [result_file sound] at done
    split at done
    next current =>
      cases done
      -- A current file answers that it is unchanged, and the log leaves it as it was.
      have outcome : ¬ (fileActions f chunks force t now).2 ≠ .unchanged := by
        rw [fileActions_answer, current]
        simp
      refine shows_.congr fun key => ?_
      rw [WriteLog.written, plan, leaves, if_neg (fun own => outcome own.2)]
    next stale =>
      split at done
      · cases done
        exact shows_put sound shows_ (Bool.not_eq_true _ |>.mp stale)
      · cases done
  | removal owner workspace live =>
    rw [result_removal] at done
    cases done
    exact shows_drop sound shows_
  | structure_ owner workspace found =>
    rw [result_structure] at done
    cases done
    obtain ⟨workspaces, put⟩ :=
      putWorkspace_files (t := t) ⟨owner, workspace, found, now⟩
    rw [put]
    exact ⟨shows_.absent, shows_.present⟩

end IndexWrite

namespace Index

/-- Between calls nothing is under way. -/
theorem replay_settled (clock : Int) (calls : List IndexCall) : (replay clock calls).2.Settled := by
  induction calls with
  | nil => exact settled_empty clock
  | cons c earlier ih => exact (c.write.run_cases c.undoable (ih.later _)).1

/-- The tables always have of each file what the log leaves of it. -/
theorem replay_shows (clock : Int) (calls : List IndexCall) :
    (replay clock calls).2.tables.Shows (replay clock calls).1 := by
  induction calls with
  | nil => exact ⟨fun _ => rfl, fun found => by cases found⟩
  | cons c earlier ih =>
    -- A write that failed left the tables and is told as refused, so both sides stay.
    have settled := (replay_settled clock earlier).later
      ((replay clock earlier).2.clock + c.pause)
    obtain ⟨_, ⟨done, answered⟩ | ⟨kept, f, refused⟩⟩ := c.write.run_cases c.undoable settled
    · have shown := c.write.shows_of_result settled.sound ih done
      simpa only [replay, answered] using shown
    · simp only [replay, refused, kept]
      exact ih.congr fun key => by rw [WriteLog.written, IndexWrite.leaves_error]

end Index

end CodeAtlas
