import CodeAtlas.Proofs.Index.Write

/-!
# Calls of an index

The three writes of an index as one: each is a transaction whose plan depends on the tables and on
the time. An index is settled between its calls.

## Main results

`IndexWrite.run_cases` says what a call does to a settled index: all that its plan says, or nothing.
`Index.upsert_cases`, `Index.sweep_cases` and `Index.saveStructure_cases` read it for each write.
-/

namespace CodeAtlas

namespace Index

/-- Nothing is under way in the index, and its tables hang together. -/
structure Settled (ix : Index) : Prop where
  opened : ix.isOpen = true
  unbegun : ix.begun = none
  sound : ix.tables.Sound

theorem settled_empty (clock : Int) : ({ clock } : Index).Settled :=
  ⟨rfl, rfl, Tables.sound_empty⟩

/-- Time passes. -/
theorem Settled.later {ix : Index} (settled : ix.Settled) (clock : Int) :
    ({ ix with clock } : Index).Settled :=
  ⟨settled.opened, settled.unbegun, settled.sound⟩

end Index

/-- A write of an index with its arguments. -/
inductive IndexWrite where
  | file (file : IndexedFile) (chunks : List IndexedChunk) (force : Bool)
  | removal (owner workspace : String) (live : List String)
  | structure_ (owner workspace : String) (found : ProjectStructure)

/-- What a write answers. -/
inductive IndexWrite.Answer where
  | outcome (outcome : WriteOutcome)
  | removed (count : Nat)
  | saved
  deriving DecidableEq

namespace IndexWrite

open Index Tables

/-- The word for a write in its failures. -/
def operation : IndexWrite → String
  | file _ _ _ => "upsert"
  | removal _ _ _ => "sweep"
  | structure_ _ _ _ => "save_workspace_structure"

/-- Runs a write. -/
def run (faults : Faults) (ix : Index) : IndexWrite → Except Failure Answer × Index
  | file f chunks force =>
    let (answer, ix) := ix.upsert faults f chunks force
    (answer.map .outcome, ix)
  | removal owner workspace live =>
    let (answer, ix) := ix.sweep faults owner workspace live
    (answer.map .removed, ix)
  | structure_ owner workspace found =>
    let (answer, ix) := ix.saveStructure faults owner workspace found
    (answer.map fun _ => .saved, ix)

/-- The actions of a write and its answer. -/
def plan (w : IndexWrite) (t : Tables) (now : Timestamp) : List Action × Answer :=
  match w with
  | file f chunks force =>
    ((fileActions f chunks force t now).1, .outcome (fileActions f chunks force t now).2)
  | removal owner workspace live =>
    ([.look .selectWorkspaceFiles, .look .deleteFiles] ++
        (doomed owner workspace live t).map (fun r => .apply .deleteFiles (·.deleteFile r.id)),
      .removed (doomed owner workspace live t).length)
  | structure_ owner workspace found =>
    ([.stamp, .apply .saveWorkspace (·.putWorkspace ⟨owner, workspace, found, now⟩)], .saved)

private theorem map_write {α β : Type} (f : α → β) (faults : Faults) (operation : String)
    (plan : Tables → Timestamp → List Action × α) (ix : Index) :
    ((ix.write faults operation plan).1.map f, (ix.write faults operation plan).2) =
      ix.write faults operation fun t now => ((plan t now).1, f (plan t now).2) := by
  simp only [write]
  split
  · rfl
  · split
    · rfl
    · split
      · rfl
      · split <;> rfl

/-- Every write is one transaction. -/
theorem run_eq_write (w : IndexWrite) (faults : Faults) (ix : Index) :
    w.run faults ix = ix.write faults w.operation w.plan := by
  cases w with
  | file f chunks force =>
    exact map_write Answer.outcome faults "upsert" (fileActions f chunks force) ix
  | removal owner workspace live =>
    exact map_write Answer.removed faults "sweep"
      (fun t _ => ([.look .selectWorkspaceFiles, .look .deleteFiles] ++
        (doomed owner workspace live t).map (fun r => .apply .deleteFiles (·.deleteFile r.id)),
        (doomed owner workspace live t).length)) ix
  | structure_ owner workspace found =>
    exact map_write (fun _ => Answer.saved) faults "save_workspace_structure"
      (fun _ now => ([.stamp,
        .apply .saveWorkspace (·.putWorkspace ⟨owner, workspace, found, now⟩)], ())) ix

variable {t t' : Tables} {now : Timestamp}

theorem result_file (sound : t.Sound) (f : IndexedFile) (chunks : List IndexedChunk)
    (force : Bool) : Action.result ((file f chunks force).plan t now).1 t =
      if t.isCurrent f force then .ok t
      else if Storable f chunks then .ok (t.put (t.rowFor f now) chunks)
      else .error .oversized :=
  result_fileActions sound

theorem result_removal (owner workspace : String) (live : List String) :
    Action.result ((removal owner workspace live).plan t now).1 t =
      .ok (t.drop ((doomed owner workspace live t).map (·.id))) :=
  result_sweep owner workspace live

theorem result_structure (owner workspace : String) (found : ProjectStructure) :
    Action.result ((structure_ owner workspace found).plan t now).1 t =
      .ok (t.putWorkspace ⟨owner, workspace, found, now⟩) :=
  rfl

/-- The structures of other workspaces stay as they are. -/
theorem mem_putWorkspace {row w : WorkspaceRow} (other : w.key ≠ row.key) :
    w ∈ (t.putWorkspace row).workspaces ↔ w ∈ t.workspaces := by
  have apart : w ≠ row := fun same => other (same ▸ rfl)
  simp only [putWorkspace]
  split
  · simp only [List.mem_map]
    constructor
    · rintro ⟨v, member, rfl⟩
      split at apart
      · exact absurd rfl apart
      · rwa [if_neg ‹_›]
    · intro member
      refine ⟨w, member, if_neg fun same => other ?_⟩
      simpa [WorkspaceRow.key] using same
  · simp [apart]

theorem sound_putWorkspace (sound : t.Sound) (row : WorkspaceRow) : (t.putWorkspace row).Sound := by
  have same (w : WorkspaceRow) :
      (w.owner == row.owner && w.path == row.path) = true ↔ w.key = row.key := by
    simp [WorkspaceRow.key]
  obtain ⟨workspaces, put⟩ := putWorkspace_files (t := t) row
  have rows : ((t.putWorkspace row).workspaces.map WorkspaceRow.key).Nodup := by
    simp only [putWorkspace]
    split
    next =>
      -- A replaced row has the key of the row that it replaces.
      have keys : (t.workspaces.map fun w =>
          if (w.owner == row.owner && w.path == row.path) = true then row else w).map
            WorkspaceRow.key = t.workspaces.map WorkspaceRow.key := by
        rw [List.map_map]
        refine List.map_congr_left fun w _ => ?_
        simp only [Function.comp_apply]
        split
        next at_ => exact ((same w).mp at_).symm
        next => rfl
      exact keys ▸ sound.workspaces
    next absent =>
      simp only [List.map_append, List.map_cons, List.map_nil]
      refine List.nodup_append.mpr ⟨sound.workspaces, List.nodup_singleton _, ?_⟩
      simp only [List.mem_map, List.mem_singleton]
      rintro _ ⟨w, member, rfl⟩ _ rfl
      exact fun atKey => absent (List.any_eq_true.mpr ⟨w, member, (same w).mpr atKey⟩)
  rw [put] at rows ⊢
  exact { sound with workspaces := rows }

/-- A write that is done keeps the tables sound. -/
theorem sound_of_result (sound : t.Sound) (w : IndexWrite)
    (done : Action.result (w.plan t now).1 t = .ok t') : t'.Sound := by
  cases w with
  | file f chunks force =>
    rw [result_file sound] at done
    split at done
    · cases done
      exact sound
    · split at done
      · cases done
        exact sound_put sound accepts_rowFor
      · cases done
  | removal owner workspace live =>
    -- Neither of the others can be refused.
    rw [result_removal] at done
    cases done
    exact sound_drop sound
  | structure_ owner workspace found =>
    rw [result_structure] at done
    cases done
    exact sound_putWorkspace sound _

/-- All that a write does to an index in which nothing is under way: what it says, or nothing.
Either way nothing is under way afterwards. -/
theorem run_cases (w : IndexWrite) {faults : Faults} (undoable : faults.Undoable) {ix : Index}
    (settled : ix.Settled) : (w.run faults ix).2.Settled ∧
      ((Action.result (w.plan ix.tables ix.now).1 ix.tables = .ok (w.run faults ix).2.tables ∧
          (w.run faults ix).1 = .ok (w.plan ix.tables ix.now).2) ∨
        ((w.run faults ix).2.tables = ix.tables ∧ ∃ f, (w.run faults ix).1 = .error f)) := by
  rw [run_eq_write]
  rcases write_cases w.operation w.plan undoable settled.opened settled.unbegun with
    ⟨t, done, ran⟩ | ⟨refusal, moved, ran⟩
  · rw [ran]
    exact ⟨⟨settled.opened, settled.unbegun, sound_of_result settled.sound w done⟩,
      .inl ⟨done, rfl⟩⟩
  · rw [ran]
    exact ⟨⟨settled.opened, settled.unbegun, settled.sound⟩, .inr ⟨rfl, _, rfl⟩⟩

/-- When the storage works, what a write says is done. -/
theorem run_calm (w : IndexWrite) {ix : Index} (settled : ix.Settled) {t : Tables}
    (done : Action.result (w.plan ix.tables ix.now).1 ix.tables = .ok t) :
    (w.run Faults.none ix).1 = .ok (w.plan ix.tables ix.now).2 := by
  have ran := write_calm w.operation w.plan settled.opened settled.unbegun
  rw [done] at ran
  rw [run_eq_write, ran]

end IndexWrite

/-! ### One by one -/

namespace Index

open Tables

variable {faults : Faults} {ix : Index}

/-- The rows that a removal concerns. -/
theorem mem_doomed_iff {t : Tables} {owner workspace : String} {live : List String} {r : FileRow} :
    r ∈ doomed owner workspace live t ↔
      r ∈ t.files ∧ r.owner = owner ∧ r.workspace = workspace ∧ r.path ∉ live := by
  simp [doomed, and_assoc]

/-- A file is among the dropped ones just when its path is not live. -/
theorem mem_doomed {t : Tables} (sound : t.Sound) {owner workspace : String} {live : List String}
    {r : FileRow} (member : r ∈ t.files) : r.id ∈ (doomed owner workspace live t).map (·.id) ↔
      r.owner = owner ∧ r.workspace = workspace ∧ r.path ∉ live := by
  simp only [List.mem_map, mem_doomed_iff]
  constructor
  · rintro ⟨r', ⟨member', concerned⟩, same⟩
    rwa [sound.eq_of_id member' member same] at concerned
  · rintro ⟨own, inside, gone⟩
    exact ⟨r, ⟨member, own, inside, gone⟩, rfl⟩

/-- A write of a file leaves it when it is current, and puts it into the tables otherwise, unless it
is refused. -/
theorem upsert_cases (undoable : faults.Undoable) (settled : ix.Settled) (f : IndexedFile)
    (chunks : List IndexedChunk) (force : Bool) :
    (ix.upsert faults f chunks force).2.Settled ∧
      (((ix.upsert faults f chunks force).1 = .ok .unchanged ∧ ix.tables.isCurrent f force = true ∧
          (ix.upsert faults f chunks force).2.tables = ix.tables) ∨
        (∃ outcome, outcome ≠ .unchanged ∧ (ix.upsert faults f chunks force).1 = .ok outcome ∧
          Storable f chunks ∧ (ix.upsert faults f chunks force).2.tables =
            ix.tables.put (ix.tables.rowFor f ix.now) chunks) ∨
        ∃ failure, (ix.upsert faults f chunks force).1 = .error failure ∧
          (ix.upsert faults f chunks force).2.tables = ix.tables) := by
  obtain ⟨after, ran⟩ := (IndexWrite.file f chunks force).run_cases undoable settled
  rw [IndexWrite.result_file settled.sound] at ran
  simp only [IndexWrite.run, IndexWrite.plan, fileActions_answer] at after ran
  refine ⟨after, ?_⟩
  cases answered : (ix.upsert faults f chunks force).1 with
  | error failure =>
    rw [answered] at ran
    -- A refusal is no answer of the plan.
    rcases ran with ⟨_, impossible⟩ | ⟨kept, _⟩
    · cases impossible
    · exact .inr (.inr ⟨failure, rfl, kept⟩)
  | ok outcome =>
    rw [answered] at ran
    rcases ran with ⟨done, said⟩ | ⟨_, _, impossible⟩
    · simp only [Except.map, Except.ok.injEq, IndexWrite.Answer.outcome.injEq] at said
      -- The answer tells whether anything was put in.
      by_cases current : ix.tables.isCurrent f force = true
      · rw [if_pos current] at done said
        exact .inl ⟨congrArg _ said, current, (Except.ok.inj done).symm⟩
      · rw [if_neg current] at done said
        split at done
        next storable =>
          refine .inr (.inl ⟨outcome, ?_, rfl, storable, (Except.ok.inj done).symm⟩)
          rw [said]
          split <;> simp
        · cases done
    · cases impossible

/-- A write of a file that went through and did not leave it put it into the tables. -/
theorem upsert_written (settled : ix.Settled) {f : IndexedFile} {chunks : List IndexedChunk}
    {force : Bool} {outcome : WriteOutcome}
    (done : (ix.upsert faults f chunks force).1 = .ok outcome) (changed : outcome ≠ .unchanged) :
    (ix.upsert faults f chunks force).2.Settled ∧
      (ix.upsert faults f chunks force).2.tables =
        ix.tables.put (ix.tables.rowFor f ix.now) chunks := by
  obtain ⟨result, said, opened, unbegun⟩ := write_ok settled.opened settled.unbegun done
  have stale : ix.tables.isCurrent f force = false := by
    rw [fileActions_answer] at said
    cases current : ix.tables.isCurrent f force with
    | true => exact absurd (by rw [said, current]; rfl) changed
    | false => rfl
  have tables := (IndexWrite.result_file settled.sound f chunks force).symm.trans result
  rw [stale, if_neg Bool.false_ne_true] at tables
  split at tables
  · have tables := Except.ok.inj tables
    refine ⟨⟨opened, unbegun, ?_⟩, tables.symm⟩
    rw [← show _ = (ix.upsert faults f chunks force).2.tables from tables]
    exact sound_put settled.sound accepts_rowFor
  · cases tables

/-- A removal drops the files that are not live and counts them, unless it is refused. -/
theorem sweep_cases (undoable : faults.Undoable) (settled : ix.Settled) (owner workspace : String)
    (live : List String) :
    (ix.sweep faults owner workspace live).2.Settled ∧
      (((ix.sweep faults owner workspace live).1 =
            .ok (doomed owner workspace live ix.tables).length ∧
          (ix.sweep faults owner workspace live).2.tables =
            ix.tables.drop ((doomed owner workspace live ix.tables).map (·.id))) ∨
        ∃ failure, (ix.sweep faults owner workspace live).1 = .error failure ∧
          (ix.sweep faults owner workspace live).2.tables = ix.tables) := by
  obtain ⟨after, ran⟩ := (IndexWrite.removal owner workspace live).run_cases undoable settled
  rw [IndexWrite.result_removal] at ran
  simp only [IndexWrite.run] at after ran
  refine ⟨after, ?_⟩
  cases answered : (ix.sweep faults owner workspace live).1 with
  | error failure =>
    rw [answered] at ran
    rcases ran with ⟨_, impossible⟩ | ⟨kept, _⟩
    · cases impossible
    · exact .inr ⟨failure, rfl, kept⟩
  | ok count =>
    rw [answered] at ran
    rcases ran with ⟨done, said⟩ | ⟨_, _, impossible⟩
    · simp only [Except.map, Except.ok.injEq, IndexWrite.plan,
        IndexWrite.Answer.removed.injEq] at said
      exact .inl ⟨congrArg _ said, (Except.ok.inj done).symm⟩
    · cases impossible

/-- When the storage works, every file that can be stored has an outcome. -/
theorem upsert_calm (settled : ix.Settled) {f : IndexedFile} {chunks : List IndexedChunk}
    (storable : Storable f chunks) (force : Bool) :
    ∃ outcome, (ix.upsert Faults.none f chunks force).1 = .ok outcome := by
  have done : ∃ t, Action.result ((IndexWrite.file f chunks force).plan ix.tables ix.now).1
      ix.tables = .ok t := by
    rw [IndexWrite.result_file settled.sound, if_pos storable]
    split <;> exact ⟨_, rfl⟩
  obtain ⟨t, done⟩ := done
  have ran := (IndexWrite.file f chunks force).run_calm settled done
  cases answered : (ix.upsert Faults.none f chunks force).1 with
  | ok outcome => exact ⟨outcome, rfl⟩
  | error failure =>
    simp only [IndexWrite.run, answered] at ran
    cases ran

/-- When the storage works, a removal says how many files it removed. -/
theorem sweep_calm (settled : ix.Settled) (owner workspace : String) (live : List String) :
    ∃ count, (ix.sweep Faults.none owner workspace live).1 = .ok count := by
  have ran := (IndexWrite.removal owner workspace live).run_calm settled
    (IndexWrite.result_removal owner workspace live)
  cases answered : (ix.sweep Faults.none owner workspace live).1 with
  | ok count => exact ⟨count, rfl⟩
  | error failure =>
    simp only [IndexWrite.run, answered] at ran
    cases ran

/-- When the storage works, a structure is saved with the time of the write. -/
theorem saveStructure_calm (settled : ix.Settled) (owner workspace : String)
    (found : ProjectStructure) :
    (ix.saveStructure Faults.none owner workspace found).2.tables =
      ix.tables.putWorkspace ⟨owner, workspace, found, ix.now⟩ := by
  let save := IndexWrite.structure_ owner workspace found
  have answered := save.run_calm settled (IndexWrite.result_structure owner workspace found)
  obtain ⟨_, ⟨done, _⟩ | ⟨_, f, failed⟩⟩ := save.run_cases Faults.none_undoable settled
  · rw [IndexWrite.result_structure] at done
    exact (Except.ok.inj done).symm
  · rw [answered] at failed
    cases failed

/-- Saving a structure leaves files, chunks and symbols alone, and the structures of other
workspaces. -/
theorem saveStructure_cases (undoable : faults.Undoable) (settled : ix.Settled)
    (owner workspace : String) (found : ProjectStructure) :
    (ix.saveStructure faults owner workspace found).2.Settled ∧
      ∃ workspaces, (ix.saveStructure faults owner workspace found).2.tables =
          { ix.tables with workspaces } ∧
        ∀ w : WorkspaceRow, w.key ≠ (owner, workspace) →
          (w ∈ workspaces ↔ w ∈ ix.tables.workspaces) := by
  obtain ⟨after, ran⟩ := (IndexWrite.structure_ owner workspace found).run_cases undoable settled
  rw [IndexWrite.result_structure] at ran
  simp only [IndexWrite.run] at after ran
  refine ⟨after, ?_⟩
  rcases ran with ⟨done, _⟩ | ⟨kept, _⟩
  · obtain ⟨workspaces, put⟩ := putWorkspace_files (t := ix.tables) ⟨owner, workspace, found, ix.now⟩
    refine ⟨workspaces, (Except.ok.inj done).symm.trans put, fun w other => ?_⟩
    have apart : w.key ≠ (⟨owner, workspace, found, ix.now⟩ : WorkspaceRow).key := other
    have same := IndexWrite.mem_putWorkspace (t := ix.tables) apart
    rwa [put] at same
  · exact ⟨ix.tables.workspaces, kept, fun _ _ => Iff.rfl⟩

end Index

end CodeAtlas
