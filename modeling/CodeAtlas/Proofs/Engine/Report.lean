import CodeAtlas.Engine.Conditions
import CodeAtlas.Proofs.Config.Standard
import CodeAtlas.Proofs.Engine.Run
import CodeAtlas.Proofs.Index.Difference
import CodeAtlas.Proofs.Tree.Distinct
import Mathlib.Algebra.GroupWithZero.Nat

/-!
# What a run reports

A run counts what it does and calls the callbacks in several places, on its way through the files
and in the sweep. The counts and the calls agree with the difference that the run makes in the
tables, whatever fails on the way and wherever it is called off.

## Main results

`IndexRun.tallied_dealt` is the step for one file, `IndexRun.accounts_finish` the sweep, and
`Engine.indexWorkspace_accounts` puts them together.
-/

namespace CodeAtlas

/-! ### Calls -/

namespace Surroundings

variable {ω : Type} {s : Surroundings ω} {owner : String} {callbacks : List (Callback ω)}

/-- The calls that follow a change. -/
def round (owner : String) (callbacks : List (Callback ω)) (path : String) : List Callback.Call :=
  (List.range callbacks.length).map fun number => ⟨number, owner, path⟩

@[simp] theorem calling_conditions (w : ω × List Callback.Call) :
    (s.calling owner callbacks).conditions w = s.conditions w.1 :=
  rfl

/-- Every callback is called once, whether or not those before it failed. -/
theorem calling_changed (w : ω × List Callback.Call) (path : String) :
    ((s.calling owner callbacks).react w (.changed path)).2 = w.2 ++ round owner callbacks path := by
  have calls (first : Nat) (w : ω × List Callback.Call) :
      ((callbacks.zipIdx first).foldl (fun told numbered =>
        ((numbered.1.call owner path told.1).2, told.2 ++ [⟨numbered.2, owner, path⟩])) w).2 =
          w.2 ++ (List.range' first callbacks.length).map fun number => ⟨number, owner, path⟩ := by
    induction callbacks generalizing first w with
    | nil => simp
    | cons callback rest ih => simp [List.range'_succ, ih]
  rw [calling, round, List.range_eq_range']
  exact calls 0 _

/-- The calls of one callback out of the rounds for some changes. -/
theorem calls_rounds {number : Nat} (one : number < callbacks.length) (paths : List String) :
    ((paths.flatMap (round owner callbacks)).filter (·.callback == number)).map
      (fun call => (call.owner, call.path)) = paths.map (owner, ·) := by
  have own (path : String) : (round owner callbacks path).filter (·.callback == number) =
      [⟨number, owner, path⟩] := by
    have found : (List.range callbacks.length).filter (· == number) = [number] := by
      rw [List.filter_beq, List.count_eq_one_of_mem List.nodup_range (List.mem_range.mpr one)]
      rfl
    rw [round, List.filter_map]
    simp only [Function.comp_def]
    rw [found, List.map_singleton]
  induction paths with
  | nil => rfl
  | cons path rest ih =>
    rw [List.flatMap_cons, List.filter_append, own, List.map_append, ih]
    rfl

end Surroundings

namespace Tables

/-- The owners and the paths of all rows that were created, replaced or removed. -/
def changedSince (before after : Tables) : List (String × String) :=
  (before.writtenSince after ++ before.removedSince after).map fun r => (r.owner, r.path)

end Tables

namespace IndexRun

variable {τ σ ω : Type}

/-- The report of a run says what happened between the tables before the run and those after it.
So many faults were found by the walk. -/
structure Accounts (before : Tables) (owner : String) (faults : Nat) (run : IndexRun τ σ ω) : Prop
    where
  processed : run.report.processed =
    run.report.updated + run.report.skipped + (run.report.errors.length - faults : Int)
  updated : run.report.updated = (before.writtenSince run.engine.index.tables).length
  deleted : run.report.deleted = (before.removedSince run.engine.index.tables).length
  embeddings : run.report.embeddings = ((before.writtenSince run.engine.index.tables).map
    fun r => (run.engine.index.tables.chunksOf r).length).sum
  told : (run.changed.map (owner, ·)).Perm (before.changedSince run.engine.index.tables)
  once : (before.changedSince run.engine.index.tables).Nodup

/-- All calls of the callbacks so far were made for the changes so far. -/
def Recorded (owner : String) (callbacks : List (Callback ω))
    (run : IndexRun τ σ (ω × List Callback.Call)) : Prop :=
  run.around.2 = run.changed.flatMap (Surroundings.round owner callbacks)

/-- After some files a run has told of the rows that it has written. -/
structure Tallied (before : Tables) (goal : RunGoal) (faults : Nat) (files : List FilePath)
    (rows : List FileRow) (run : IndexRun τ σ ω) : Prop where
  settled : run.engine.index.Settled
  writes : before.Overwrites rows run.engine.index.tables
  own : ∀ r ∈ rows, r.owner = goal.owner ∧ r.workspace = goal.workspace.text
  paths : (rows.map (·.path)).Sublist (files.map (·.text))
  told : run.changed = rows.map (·.path)
  processed : run.report.processed =
    run.report.updated + run.report.skipped + (run.report.errors.length - faults : Int)
  updated : run.report.updated = rows.length
  deleted : run.report.deleted = 0
  embeddings : run.report.embeddings =
    (rows.map fun r => (run.engine.index.tables.chunksOf r).length).sum

variable {before : Tables} {goal : RunGoal} {faults : Nat} {files : List FilePath}
  {rows : List FileRow} {s : Surroundings ω} {run run' : IndexRun τ σ ω}

/-- At the start nothing was written. -/
theorem tallied_atStart {e : Engine τ σ} (settled : e.index.Settled) (goal : RunGoal) (around : ω)
    (faults : List ScanFault) :
    Tallied e.index.tables goal faults.length [] [] (atStart e around faults) where
  settled := settled
  writes := .refl settled.sound
  own _ member := absurd member List.not_mem_nil
  paths := List.Sublist.refl _
  told := rfl
  processed := by simp [atStart]
  updated := rfl
  deleted := rfl
  embeddings := rfl

/-- A file after which the tables are the same. -/
theorem Tallied.sameTables (tallied : Tallied before goal faults files rows run) (path : FilePath)
    (settled : run'.engine.index.Settled)
    (tables : run'.engine.index.tables = run.engine.index.tables)
    (changed : run'.changed = run.changed) (updated : run'.report.updated = run.report.updated)
    (deleted : run'.report.deleted = run.report.deleted)
    (embeddings : run'.report.embeddings = run.report.embeddings)
    (processed : run'.report.processed =
      run'.report.updated + run'.report.skipped + (run'.report.errors.length - faults : Int)) :
    Tallied before goal faults (files ++ [path]) rows run' where
  settled := settled
  writes := tables ▸ tallied.writes
  own := tallied.own
  paths := by
    rw [List.map_append]
    exact tallied.paths.trans (List.sublist_append_left _ _)
  told := changed.trans tallied.told
  processed := processed
  updated := updated.trans tallied.updated
  deleted := deleted.trans tallied.deleted
  embeddings := by rw [embeddings, tables, tallied.embeddings]

/-- Dealing with one more file, the tally goes on. -/
theorem tallied_dealt (sound : before.Sound) {path : FilePath}
    (fresh : path.text ∉ files.map (·.text)) (dealt : Dealt s goal path run run')
    (tallied : Tallied before goal faults files rows run) :
    ∃ rows', Tallied before goal faults (files ++ [path]) rows' run' := by
  have processed := tallied.processed
  cases dealt with
  | cancelled off after =>
    subst after
    exact ⟨rows, tallied.sameTables path tallied.settled rfl rfl rfl rfl rfl processed⟩
  | failed embedder index f work settled tables engine report changed around =>
    have index_ : run'.engine.index = index := congrArg (·.index) engine
    refine ⟨rows, tallied.sameTables path (index_ ▸ settled) (index_ ▸ tables) changed
      (congrArg (·.updated) report) (congrArg (·.deleted) report) (congrArg (·.embeddings) report)
      ?_⟩
    -- One more file was processed, and one more error is reported.
    rw [report]
    simp only [RunReport.addError, RunReport.countProcessed, List.length_append,
      List.length_singleton]
    omega
  | skipped embedder index read work settled tables engine report changed around =>
    have index_ : run'.engine.index = index := congrArg (·.index) engine
    refine ⟨rows, tallied.sameTables path (index_ ▸ settled) (index_ ▸ tables) changed
      (congrArg (·.updated) report) (congrArg (·.deleted) report) (congrArg (·.embeddings) report)
      ?_⟩
    rw [report]
    simp only [RunReport.countSkipped, RunReport.countProcessed]
    omega
  | written embedder index read outline d embeddings work settled tables engine report changed
      around given outlined draft =>
    obtain ⟨memory, forgot⟩ := Engine.forget_engine (s.conditions run.around) goal.owner
      { run.engine with embedder, index }
    have index_ : run'.engine.index = index := congrArg (·.index) (engine.trans forgot)
    generalize row_ : run.engine.index.tables.rowFor d.file run.engine.index.now = row at tables
    have key : row.key = (goal.owner, goal.workspace.text, path.text) := by
      rw [← row_, Tables.rowFor_key, draft]
      rfl
    simp only [FileRow.key, Prod.mk.injEq] at key
    obtain ⟨owner, workspace, text⟩ := key
    -- No file is dealt with twice, so the row is none of those written before.
    have unwritten : (d.file.owner, d.file.workspace, d.file.path) ∉ rows.map FileRow.key := by
      intro among
      obtain ⟨r, written, same⟩ := List.mem_map.mp among
      have atPath : r.path = path.text := (congrArg (·.2.2) same).trans (by rw [draft]; rfl)
      exact fresh (atPath ▸ tallied.paths.subset (List.mem_map_of_mem written))
    have writes := tallied.writes.put sound run.engine.index.now (d.embedded embeddings).chunks
      unwritten
    rw [row_, ← tables, ← index_] at writes
    refine ⟨rows ++ [row], index_ ▸ settled, writes, ?_, ?_, ?_, ?_, ?_, ?_, ?_⟩
    · intro r member
      rcases List.mem_append.mp member with written | new
      · exact tallied.own r written
      · rw [List.mem_singleton.mp new]
        exact ⟨owner, workspace⟩
    · rw [List.map_append, List.map_append, List.map_singleton, List.map_singleton, text]
      exact tallied.paths.append (List.Sublist.refl _)
    · rw [changed, tallied.told, List.map_append, List.map_singleton, text]
    · rw [report]
      simp only [RunReport.countWritten, RunReport.countProcessed]
      omega
    · rw [report]
      simp [RunReport.countWritten, RunReport.countProcessed, tallied.updated]
    · rw [report]
      exact tallied.deleted
    · rw [report, index_, tables]
      simp only [RunReport.countWritten, RunReport.countProcessed, tallied.embeddings,
        List.map_append, List.sum_append, List.map_singleton, List.sum_singleton,
        Tables.chunksOf_put, if_true, Int.natCast_add]
      -- The rows written before keep their chunks.
      have kept : rows.map (fun r => ((if r.id = row.id then
          if r.generation = row.generation then (d.embedded embeddings).chunks else []
          else run.engine.index.tables.chunksOf r)).length) =
          rows.map fun r => (run.engine.index.tables.chunksOf r).length := by
        refine List.map_congr_left fun r written => ?_
        have apart : r.id ≠ row.id := fun same => by
          have old : r ∈ run.engine.index.tables.files :=
            (tallied.writes.members r).mpr (.inl written)
          have accepts : run.engine.index.tables.Accepts row := row_ ▸ Tables.accepts_rowFor
          have atKey := (accepts.id_iff_key tallied.settled.sound old).mp same
          have atPath : r.path = row.path := congrArg (·.2.2) atKey
          exact fresh (text ▸ atPath ▸ tallied.paths.subset (List.mem_map_of_mem written))
        rw [if_neg apart]
      rw [kept]

/-- What was written and what was removed make up the account of a run. -/
theorem Tallied.accounts (sound : before.Sound) (tallied : Tallied before goal faults files rows run)
    (gone : List FileRow) (removed : ∀ r ∈ gone, r ∈ run.engine.index.tables.files ∧
      r.owner = goal.owner ∧ r.workspace = goal.workspace.text ∧ r.path ∉ files.map (·.text))
    (keys : (gone.map FileRow.key).Nodup) (workspaces : List WorkspaceRow)
    (tables : run'.engine.index.tables =
      { run.engine.index.tables.drop (gone.map (·.id)) with workspaces })
    (report : run'.report = { run.report with deleted := gone.length })
    (changed : (run'.changed).Perm (run.changed ++ gone.map (·.path))) :
    Accounts before goal.owner faults run' := by
  have among : gone ⊆ run.engine.index.tables.files := fun r member => (removed r member).1
  have spared : ∀ r ∈ rows, r ∉ gone := fun r written lost =>
    (removed r lost).2.2.2 (tallied.paths.subset (List.mem_map_of_mem written))
  have written : (before.writtenSince run'.engine.index.tables).Perm rows := by
    rw [tables]
    exact tallied.writes.written_perm sound among spared
  have dropped : (before.removedSince run'.engine.index.tables).Perm gone := by
    rw [tables]
    exact tallied.writes.removed_perm sound among spared (.of_map _ keys)
  have all : (before.changedSince run'.engine.index.tables).Perm
      (((rows ++ gone).map (·.path)).map (goal.owner, ·)) := by
    rw [List.map_map]
    refine ((written.append dropped).map _).trans (.of_eq (List.map_congr_left fun r member => ?_))
    have own : r.owner = goal.owner := by
      rcases List.mem_append.mp member with new | lost
      · exact (tallied.own r new).1
      · exact (removed r lost).2.1
    rw [own]
    rfl
  refine ⟨?_, ?_, ?_, ?_, ?_, ?_⟩
  · rw [report]
    exact tallied.processed
  · rw [report, written.length_eq]
    exact tallied.updated
  · rw [report, dropped.length_eq]
  · have kept : rows.map (fun r => (run'.engine.index.tables.chunksOf r).length) =
        rows.map fun r => (run.engine.index.tables.chunksOf r).length := by
      refine List.map_congr_left fun r new => ?_
      have left : r.id ∉ gone.map (·.id) := fun lost => by
        obtain ⟨r', found, same⟩ := List.mem_map.mp lost
        have old := (tallied.writes.members r).mpr (.inl new)
        exact spared r new (tallied.writes.sound.eq_of_id (among found) old same ▸ found)
      rw [tables]
      show ((run.engine.index.tables.drop (gone.map (·.id))).chunksOf r).length = _
      rw [Tables.chunksOf_drop, if_neg left]
    rw [report, (written.map _).sum_nat, kept]
    exact tallied.embeddings
  · refine (changed.map _).trans (.trans (.of_eq ?_) all.symm)
    rw [tallied.told, ← List.map_append]
  · -- Neither the written paths nor the removed ones come twice, and none comes in both.
    have first : (rows.map (·.path)).Nodup := FileRow.nodup_paths tallied.writes.keys tallied.own
    have second : (gone.map (·.path)).Nodup :=
      FileRow.nodup_paths keys fun r lost => ⟨(removed r lost).2.1, (removed r lost).2.2.1⟩
    refine all.nodup_iff.mpr (.map (fun _ _ same => (Prod.mk.inj same).2) ?_)
    rw [List.map_append]
    refine List.nodup_append.mpr ⟨first, second, fun path new path' lost same => ?_⟩
    obtain ⟨r, among, rfl⟩ := List.mem_map.mp lost
    exact (removed r among).2.2.2 (same ▸ tallied.paths.subset new)

/-- At the end the account of the run is complete, unless the run fails. -/
theorem accounts_finish (honest : ∀ w, (s.conditions w).Honest) (sound : before.Sound)
    (restricting : goal.workspace.text ≠ "") (tallied : Tallied before goal faults files rows run)
    (unreadable : List String) (returned : (run.finish s goal files unreadable).1 = none) :
    Accounts before goal.owner faults (run.finish s goal files unreadable).2 := by
  have swept := swept_sweep (honest run.around) tallied.settled goal files unreadable
  cases off : run.report.cancelled with
  | true =>
    obtain ⟨index, workspaces, _, tables, saved, _⟩ :=
      saveStructure_cases (honest run.around) tallied.settled goal
    simp only [finish, off, if_true, saved]
    refine tallied.accounts sound [] (fun _ member => absurd member List.not_mem_nil)
      List.nodup_nil workspaces ?_ ?_ ?_
    · rw [List.map_nil, Tables.drop_nil]
      exact tables
    · exact congrArg (fun n => { run.report with deleted := n }) tallied.deleted
    · simp
  | false =>
    simp only [finish, off, Bool.false_eq_true, if_false] at returned ⊢
    generalize run.sweep s goal files unreadable = out at swept returned ⊢
    cases swept with
    | failed index f settled tables => cases returned
    | removed index live gone deleted settled tables walked kept told count paths =>
      have same := tellAll_same s goal.owner gone
        (({ run with engine := { run.engine with index } } : IndexRun τ σ ω).reported
          fun r => { r with deleted := deleted })
      generalize gone.foldl (tell s goal.owner) _ = last at same ⊢
      obtain ⟨index_, report, changed⟩ := same
      have index_ : last.engine.index = index := index_
      obtain ⟨index', workspaces, _, tables', saved, _⟩ :=
        saveStructure_cases (honest last.around) (index_.symm ▸ settled) goal
      simp only [saved]
      refine tallied.accounts sound (Index.doomed goal.owner goal.workspace.text live
        run.engine.index.tables) (fun r lost => ?_)
        (tallied.writes.sound.keys.sublist (List.filter_sublist.map _)) workspaces ?_ ?_ ?_
      · obtain ⟨member, own, inside, dead⟩ := Index.mem_doomed_iff.mp lost
        refine ⟨member, own, inside, fun among => ?_⟩
        -- All files of the walk are live.
        obtain ⟨p, given, same⟩ := List.mem_map.mp among
        exact dead (same ▸ walked p given)
      · rw [tables', index_, tables]
      · rw [report, count]
        rfl
      · show last.changed.Perm _
        rw [changed]
        exact (paths restricting).append_left _

/-! ### Calls on the way -/

section Calls

variable {owner : String} {callbacks : List (Callback ω)}
  {run run' : IndexRun τ σ (ω × List Callback.Call)}

theorem recorded_tell (recorded : Recorded owner callbacks run) (path : String) :
    Recorded owner callbacks (run.tell (s.calling owner callbacks) goal.owner path) := by
  simp only [Recorded, tell, Surroundings.calling_changed, List.flatMap_append,
    List.flatMap_singleton]
  rw [recorded]

theorem recorded_dealt {path : FilePath}
    (dealt : Dealt (s.calling owner callbacks) goal path run run')
    (recorded : Recorded owner callbacks run) : Recorded owner callbacks run' := by
  cases dealt with
  | cancelled off after => exact after ▸ recorded
  | failed embedder index f work settled tables engine report changed around =>
    rw [Recorded, around, changed]
    exact recorded
  | skipped embedder index read work settled tables engine report changed around =>
    rw [Recorded, around, changed]
    exact recorded
  | written embedder index read outline d embeddings work settled tables engine report changed
      around =>
    rw [Recorded, around, changed, List.flatMap_append, List.flatMap_singleton, ← recorded]
    exact Surroundings.calling_changed run.around path.text

theorem recorded_finish (honest : ∀ w, (s.conditions w).Honest) (settled : run.engine.index.Settled)
    (recorded : Recorded owner callbacks run) (goal : RunGoal) (files : List FilePath)
    (unreadable : List String) :
    Recorded owner callbacks (run.finish (s.calling owner callbacks) goal files unreadable).2 := by
  have saved {run : IndexRun τ σ (ω × List Callback.Call)} (settled : run.engine.index.Settled)
      (recorded : Recorded owner callbacks run) :
      Recorded owner callbacks (run.saveStructure (s.calling owner callbacks) goal) := by
    obtain ⟨index, workspaces, _, _, saved, _⟩ := saveStructure_cases
      (s := s.calling owner callbacks) (honest run.around.1) settled goal
    exact saved ▸ recorded
  have swept := swept_sweep (s := s.calling owner callbacks) (honest run.around.1) settled goal files
    unreadable
  simp only [finish]
  split
  · exact saved settled recorded
  · generalize run.sweep (s.calling owner callbacks) goal files unreadable = out at swept ⊢
    cases swept with
    | failed index f settled' tables => exact recorded
    | removed index live gone deleted settled' =>
      have told (run : IndexRun τ σ (ω × List Callback.Call))
          (recorded : Recorded owner callbacks run) (gone : List String) :
          Recorded owner callbacks (gone.foldl (tell (s.calling owner callbacks) goal.owner) run) := by
        induction gone generalizing run with
        | nil => exact recorded
        | cons path rest ih => exact ih _ (recorded_tell recorded path)
      have index_ := (tellAll_same (s.calling owner callbacks) goal.owner gone
        (({ run with engine := { run.engine with index } } : IndexRun τ σ _).reported
          fun r => { r with deleted := deleted })).1
      refine saved (index_ ▸ settled') (told _ ?_ gone)
      exact recorded

end Calls

section Time

set_option linter.unusedSectionVars false

variable [Add τ] [Sub τ] [LE τ] [DecidableLE τ] [LT τ] [DecidableLT τ] [OfNat τ 0]

theorem tallied_processAll (honest : ∀ w, (s.conditions w).Honest) (sound : before.Sound) (now : τ)
    (rest : List FilePath) (distinct : ((files ++ rest).map (·.text)).Nodup)
    (tallied : Tallied before goal faults files rows run) : ∃ rows',
      Tallied before goal faults (files ++ rest) rows' (rest.foldl (process s now goal) run) := by
  -- The files that are done move from the rest to the front, one by one.
  induction rest generalizing files rows run with
  | nil => exact ⟨rows, (List.append_nil files).symm ▸ tallied⟩
  | cons path rest ih =>
    rw [List.append_cons] at distinct ⊢
    have fresh : path.text ∉ files.map (·.text) := by
      rw [List.map_append, List.map_append] at distinct
      have both := (List.nodup_append.mp (List.nodup_append.mp distinct).1).2.2
      exact fun among => both path.text among path.text (by simp) rfl
    have dealt : Dealt s goal path run (process s now goal run path) :=
      dealt_process (honest run.around) tallied.settled path
    obtain ⟨rows', tallied'⟩ := tallied_dealt sound fresh dealt tallied
    exact ih distinct tallied'

theorem recorded_processAll {owner : String} {callbacks : List (Callback ω)}
    {run : IndexRun τ σ (ω × List Callback.Call)} (honest : ∀ w, (s.conditions w).Honest) (now : τ)
    (files : List FilePath) (settled : run.engine.index.Settled)
    (recorded : Recorded owner callbacks run) :
    Recorded owner callbacks (files.foldl (process (s.calling owner callbacks) now goal) run) := by
  induction files generalizing run with
  | nil => exact recorded
  | cons path rest ih =>
    have dealt : Dealt (s.calling owner callbacks) goal path run
        (process (s.calling owner callbacks) now goal run path) :=
      dealt_process (honest run.around.1) settled path
    exact ih (dealt.settled settled) (recorded_dealt dealt recorded)

end Time

end IndexRun

namespace Engine

variable {τ σ ω : Type}
variable [Add τ] [Sub τ] [LE τ] [DecidableLE τ] [LT τ] [DecidableLT τ] [OfNat τ 0]

/-- A run that returns reports what it did to the tables. It looked at as many files as it wrote,
skipped and failed on, the errors of the walk apart; its counts are the numbers of rows and chunks;
and it called every callback once for each row that was written or removed, and for nothing else. -/
theorem indexWorkspace_accounts {s : Surroundings ω} (honest : ∀ w, (s.conditions w).Honest)
    {w : ω} (named : (s.conditions w).tree.Named) (distinct : (s.conditions w).tree.Distinct)
    {e : Engine τ σ} (settled : e.index.Settled) (callbacks : List (Callback ω)) (now : τ)
    (owner : String) (root : FilePath) (force : Bool)
    (returned : (e.indexWorkspace (s.calling owner callbacks) now owner root force (w, [])).1 = none) :
    let run := (e.indexWorkspace (s.calling owner callbacks) now owner root force (w, [])).2
    (∃ walk, Walk.start e.config.scanner (s.conditions w).tree root = .ok walk ∧
      run.Accounts e.index.tables owner (walk.drain (s.conditions w).tree).2.faults.length) ∧
    ∀ number < callbacks.length,
      ((run.around.2.filter (·.callback == number)).map fun call => (call.owner, call.path)).Perm
        (e.index.tables.changedSince run.engine.index.tables) := by
  intro run
  have honest' : ∀ w, ((s.calling owner callbacks).conditions w).Honest := fun w => honest w.1
  cases started : Walk.start e.config.scanner (s.conditions w).tree root with
  | error fault =>
    -- A run whose root is refused does not return.
    simp only [indexWorkspace, Surroundings.calling_conditions, started] at returned
    cases returned
  | ok walk =>
    have restricting := (Walk.named_start named started).1.text_ne
    have texts := Walk.nodup_drain named distinct started
    cases drained : walk.drain (s.conditions w).tree with | mk files left =>
    rw [drained] at texts
    have tree : ((s.calling owner callbacks).conditions (w, [])).tree.Named := named
    have went := IndexRun.indexWorkspace_eq tree started drained now owner force
    simp only [run, went, Surroundings.calling_conditions] at returned ⊢
    have tallied := IndexRun.tallied_atStart settled
      ⟨owner, (s.conditions w).tree.workspace root, force⟩ (w, ([] : List Callback.Call)) left.faults
    have recorded : IndexRun.Recorded owner callbacks
        (IndexRun.atStart e (w, []) left.faults) := rfl
    obtain ⟨rows, tallied'⟩ := IndexRun.tallied_processAll honest' settled.sound now files
      ((List.nil_append _).symm ▸ texts) tallied
    have accounts := IndexRun.accounts_finish honest' settled.sound restricting tallied' _ returned
    have recorded' := IndexRun.recorded_finish honest tallied'.settled
      (IndexRun.recorded_processAll honest now files tallied.settled recorded)
      ⟨owner, (s.conditions w).tree.workspace root, force⟩ files (left.faults.map (·.path))
    refine ⟨⟨walk, rfl, ?_⟩, fun number one => ?_⟩
    · rw [drained]
      exact accounts
    · rw [recorded', Surroundings.calls_rounds one]
      exact accounts.told

/-- Two callbacks, of which the first fails, are called for the one file of a workspace. -/
theorem indexWorkspace_accounts_failing :
    let tree : Tree := ⟨.dir [("a.py", .file [120] (.ofMicros 0))]⟩
    let callbacks : List (Callback Unit) :=
      [⟨fun _ _ w => (.error (.plain (.unforeseen "RuntimeError") "down"), w)⟩,
        ⟨fun _ _ w => (.ok (), w)⟩]
    let s := (Surroundings.quiet tree).calling "o" callbacks
    let e : Engine Int Unit := create (fun _ => 300) .standard .standard none () { clock := 0 }
    let out := e.indexWorkspace s 0 "o" ⟨"/", []⟩ false ((), [])
    out.1 = none ∧
      (∃ walk, Walk.start e.config.scanner tree ⟨"/", []⟩ = .ok walk ∧
        out.2.Accounts e.index.tables "o" (walk.drain tree).2.faults.length) ∧
      ∀ number < callbacks.length,
        ((out.2.around.2.filter (·.callback == number)).map fun call => (call.owner, call.path)).Perm
          (e.index.tables.changedSince out.2.engine.index.tables) := by
  intro tree callbacks s e out
  have calm : ∀ w, (s.conditions w).Calm := fun w => Surroundings.calm_quiet tree w.1
  have starts : ∃ walk, Walk.start e.config.scanner tree ⟨"/", []⟩ = .ok walk := by
    have here : tree.find ⟨"/", []⟩ = .ok tree.top := by
      simp [Tree.find, Tree.place, Node.below?]
    simp [Walk.start, Tree.holds, Tree.isDir, here, Except.toBool, tree]
  have returned : out.1 = none :=
    IndexRun.indexWorkspace_returns calm (Index.settled_empty 0) starts 0 "o" false
  exact ⟨returned, indexWorkspace_accounts (s := Surroundings.quiet tree)
    (fun w => (Surroundings.calm_quiet tree w).inOrder.honest) (w := ()) (by decide) (by decide)
    (Index.settled_empty 0) callbacks 0 "o" ⟨"/", []⟩ false returned⟩

end Engine

end CodeAtlas
