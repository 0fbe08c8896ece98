import CodeAtlas.Engine.Run
import CodeAtlas.Proofs.Engine.Entry
import CodeAtlas.Proofs.Tree.Walk

/-!
# Steps of an indexing run

What dealing with one file can come to, and what the sweep can, each said once. Nothing else opens
`IndexRun.process` or `IndexRun.sweep`; what holds of runs is proved from these by induction on the
files.

## Main results

`IndexRun.dealt_process` and `IndexRun.swept_sweep`. `IndexRun.Kept.indexWorkspace`: what every step
keeps is kept by runs.
-/

namespace CodeAtlas

/-- Forgetting an owner changes what is kept and nothing else. -/
theorem Engine.forget_engine {τ σ : Type} (c : Conditions) (owner : String) (e : Engine τ σ) :
    ∃ memory, (e.forget c owner).2 = { e with memory } := by
  simp only [forget]
  split <;> exact ⟨_, rfl⟩

namespace IndexRun

variable {τ σ ω : Type}

/-- All that dealing with a file can come to. -/
inductive Dealt (s : Surroundings ω) (goal : RunGoal) (path : FilePath)
    (run run' : IndexRun τ σ ω) : Prop where
  /-- The run had been called off. -/
  | cancelled (off : (s.conditions run.around).cancelled = true)
      (after : run' = run.reported fun r => { r with cancelled := true })
  /-- Something failed, and the tables are as they were. -/
  | failed (embedder : Embedder τ σ) (index : Index) (f : Failure)
      (work : run.engine.embedder.Work embedder) (settled : index.Settled)
      (tables : index.tables = run.engine.index.tables)
      (engine : run'.engine = { run.engine with embedder, index })
      (report : run'.report = run.report.countProcessed.addError path f)
      (changed : run'.changed = run.changed)
      (around : run'.around = s.react run.around (.finished path))
  /-- The content of the file stands in the index. -/
  | skipped (embedder : Embedder τ σ) (index : Index) (read : ReadFile)
      (work : run.engine.embedder.Work embedder) (settled : index.Settled)
      (tables : index.tables = run.engine.index.tables)
      (engine : run'.engine = { run.engine with embedder, index })
      (report : run'.report = run.report.countProcessed.countSkipped)
      (changed : run'.changed = run.changed)
      (around : run'.around = s.react run.around (.finished path))
      (given : ReadFile.of (s.conditions run.around).tree path = .ok read)
      (current : run.engine.storedHash goal.owner goal.workspace path = some read.contentHash)
  /-- The entry that the outline of the file decides was written, and this was told. -/
  | written (embedder : Embedder τ σ) (index : Index) (read : ReadFile) (outline : Outline)
      (d : EntryDraft) (embeddings : List Embedding) (work : run.engine.embedder.Work embedder)
      (settled : index.Settled)
      (tables : index.tables = run.engine.index.tables.put
        (run.engine.index.tables.rowFor d.file run.engine.index.now) (d.embedded embeddings).chunks)
      (engine : run'.engine = (({ run.engine with embedder, index } : Engine τ σ).forget
        (s.conditions run.around) goal.owner).2)
      (report : run'.report =
        run.report.countProcessed.countWritten (d.embedded embeddings).chunks.length)
      (changed : run'.changed = run.changed ++ [path.text])
      (around : run'.around = s.react (s.react run.around (.changed path.text)) (.finished path))
      (given : ReadFile.of (s.conditions run.around).tree path = .ok read)
      (outlined : (s.conditions run.around).outage .grammar = none →
        outline = Outline.analyze run.engine.config.analyzer path.text read.content)
      (draft : d = .ofOutline run.engine.config.analyzer goal.owner goal.workspace path read
        run.engine.index.now outline)
      (count : 0 < run.engine.embedder.config.batchSize → embeddings.length = d.chunks.length)
      (features : run.engine.embedder.Offline →
        embeddings = d.features run.engine.embedder.config)
      (storable : Index.Storable d.file (d.embedded embeddings).chunks)
      (timely : Engine.Timely run.engine.config)

theorem Dealt.settled {s : Surroundings ω} {goal : RunGoal} {path : FilePath}
    {run run' : IndexRun τ σ ω} (dealt : Dealt s goal path run run')
    (before : run.engine.index.Settled) : run'.engine.index.Settled := by
  cases dealt with
  | cancelled off after => exact after ▸ before
  | failed embedder index f work settled tables engine => exact engine ▸ settled
  | skipped embedder index read work settled tables engine => exact engine ▸ settled
  | written embedder index read outline d embeddings work settled tables engine =>
    obtain ⟨memory, forgot⟩ := Engine.forget_engine (s.conditions run.around) goal.owner
      { run.engine with embedder, index }
    rw [engine, forgot]
    exact settled

/-- A write of an entry fails, or finds the entry current, or puts it into the tables and tells so.
-/
theorem write_cases {s : Surroundings ω} (goal : RunGoal) (run : IndexRun τ σ ω)
    (honest : (s.conditions run.around).Honest) (settled : run.engine.index.Settled)
    (path : FilePath) (entry : IndexEntry) :
    ∃ index : Index, index.Settled ∧
      ((∃ f, index.tables = run.engine.index.tables ∧ run.write s goal path entry =
          ({ run with engine := { run.engine with index } } : IndexRun τ σ ω).reported
            (·.addError path f)) ∨
        (run.engine.index.tables.isCurrent entry.file goal.force = true ∧
          index.tables = run.engine.index.tables ∧ run.write s goal path entry =
            ({ run with engine := { run.engine with index } } : IndexRun τ σ ω).reported
              RunReport.countSkipped) ∨
        (Index.Storable entry.file entry.chunks ∧
          index.tables = run.engine.index.tables.put
            (run.engine.index.tables.rowFor entry.file run.engine.index.now) entry.chunks ∧
          run.write s goal path entry =
            (({ run with engine := { run.engine with index } } : IndexRun τ σ ω).reported
              (·.countWritten entry.chunks.length)).tell s goal.owner entry.file.path)) := by
  simp only [write]
  -- The operation is done or is out of order; when it is done, the index has three answers.
  rcases honest.guardOn_cases .upsert Outage.outcome
    (Index.upsert (s.conditions run.around).faults entry.file entry.chunks goal.force)
    run.engine.index with done | ⟨f, failed⟩
  · rw [done]
    obtain ⟨after, ⟨answer, current, tables⟩ | ⟨outcome, changed, answer, storable, tables⟩ |
      ⟨f, answer, tables⟩⟩ := Index.upsert_cases honest.undoable settled entry.file entry.chunks
        goal.force
    · rw [answer]
      exact ⟨_, after, .inr (.inl ⟨current, tables, rfl⟩)⟩
    · rw [answer]
      refine ⟨_, after, .inr (.inr ⟨storable, tables, ?_⟩)⟩
      cases outcome with
      | created => rfl
      | updated => rfl
      | unchanged => exact absurd rfl changed
    · rw [answer]
      exact ⟨_, after, .inl ⟨f, tables, rfl⟩⟩
  · rw [failed]
    exact ⟨_, settled, .inl ⟨f, rfl, rfl⟩⟩

section Time

set_option linter.unusedSectionVars false

variable [Add τ] [Sub τ] [LE τ] [DecidableLE τ] [LT τ] [DecidableLT τ] [OfNat τ 0] {now : τ}
  {s : Surroundings ω} {goal : RunGoal} {run : IndexRun τ σ ω}

/-- Dealing with a file comes to one of these. -/
theorem dealt_process (honest : (s.conditions run.around).Honest)
    (settled : run.engine.index.Settled) (path : FilePath) :
    Dealt s goal path run (run.process s now goal path) := by
  simp only [process]
  split
  next off => exact .cancelled off rfl
  · obtain ⟨embedder, work, engine⟩ := (run.reported RunReport.countProcessed).engine.entry_engine
      (s.conditions run.around) now goal.owner goal.workspace path goal.force
    cases made : ((run.reported RunReport.countProcessed).engine.entry
        (s.conditions run.around) now goal.owner goal.workspace path goal.force).1 with
    | error f => exact .failed embedder _ f work settled rfl engine rfl rfl rfl
    | ok found =>
      obtain ⟨read, given, ⟨rfl, current⟩ | ⟨outline, d, embeddings, outlined, draft, rfl, count,
        features, timely⟩⟩ := Engine.entry_ok honest made
      · exact .skipped embedder _ read work settled rfl engine rfl rfl rfl given current
      · simp only [engine]
        obtain ⟨index, after, ⟨f, tables, wrote⟩ | ⟨current, tables, wrote⟩ |
          ⟨storable, tables, wrote⟩⟩ := write_cases goal
            { run.reported RunReport.countProcessed with engine := { run.engine with embedder } }
            honest settled path (d.embedded embeddings)
        · exact .failed embedder index f work after tables (congrArg (·.engine) wrote)
            (congrArg (·.report) wrote) (congrArg (·.changed) wrote)
            (congrArg (fun r => s.react r.around (.finished path)) wrote)
        · refine .skipped embedder index read work after tables (congrArg (·.engine) wrote)
            (congrArg (·.report) wrote) (congrArg (·.changed) wrote)
            (congrArg (fun r => s.react r.around (.finished path)) wrote) given ?_
          -- The hash that the write found in the tables is that of the draft.
          have stored := Tables.isCurrent_hash current
          rw [draft] at stored
          exact stored
        · exact .written embedder index read outline d embeddings work after tables
            (congrArg (·.engine) wrote) (congrArg (·.report) wrote)
            ((congrArg (·.changed) wrote).trans (by rw [draft]; rfl))
            ((congrArg (fun r => s.react r.around (.finished path)) wrote).trans (by rw [draft]; rfl))
            given outlined draft count features storable timely

end Time

/-! ### After the files -/

/-- Telling what changed leaves the index and the report alone. -/
theorem tellAll_same (s : Surroundings ω) (owner : String) (paths : List String)
    (run : IndexRun τ σ ω) : (paths.foldl (tell s owner) run).engine.index = run.engine.index ∧
      (paths.foldl (tell s owner) run).report = run.report ∧
      (paths.foldl (tell s owner) run).changed = run.changed ++ paths := by
  induction paths generalizing run with
  | nil => exact ⟨rfl, rfl, (List.append_nil _).symm⟩
  | cons path rest ih =>
    obtain ⟨memory, forgot⟩ := Engine.forget_engine (s.conditions run.around) owner run.engine
    obtain ⟨index, report, changed⟩ := ih (run.tell s owner path)
    refine ⟨index.trans (by rw [tell, forgot]), report, changed.trans ?_⟩
    simp [tell]

/-- All that the sweep can come to. -/
inductive Swept (s : Surroundings ω) (goal : RunGoal) (files : List FilePath)
    (unreadable : List String) (run : IndexRun τ σ ω) :
    Option Failure × IndexRun τ σ ω → Prop where
  /-- Something failed, and the tables are as they were. -/
  | failed (index : Index) (f : Failure) (settled : index.Settled)
      (tables : index.tables = run.engine.index.tables) :
      Swept s goal files unreadable run (some f, { run with engine := { run.engine with index } })
  /-- The files that are not live were removed; when there were any, some change was told. -/
  | removed (index : Index) (live gone : List String) (deleted : Nat) (settled : index.Settled)
      (tables : index.tables = run.engine.index.tables.drop
        ((Index.doomed goal.owner goal.workspace.text live run.engine.index.tables).map (·.id)))
      (walked : ∀ p ∈ files, p.text ∈ live)
      (kept : ∀ p ∈ live, p ∈ files.map (·.text) ∨ isUnderAny unreadable p = true)
      (told : gone = [] →
        Index.doomed goal.owner goal.workspace.text live run.engine.index.tables = [])
      (count : deleted =
        (Index.doomed goal.owner goal.workspace.text live run.engine.index.tables).length)
      (paths : goal.workspace.text ≠ "" → gone.Perm
        ((Index.doomed goal.owner goal.workspace.text live run.engine.index.tables).map (·.path)))
      (spared : ∀ r ∈ run.engine.index.tables.files, r.owner = goal.owner →
        r.workspace = goal.workspace.text → isUnderAny unreadable r.path = true → r.path ∈ live) :
      Swept s goal files unreadable run (none, gone.foldl (tell s goal.owner)
        (({ run with engine := { run.engine with index } } : IndexRun τ σ ω).reported
          fun r => { r with deleted := deleted }))

/-- The stored paths of a workspace, as the sweep asks for them. -/
def stored (t : Tables) (owner workspace : String) : List String :=
  ((t.listed owner (some workspace)).map (·.summary)).map (·.path)

theorem mem_stored {t : Tables} {owner workspace : String} {r : FileRow}
    (member : r ∈ t.files) (own : r.owner = owner) (inside : r.workspace = workspace) :
    r.path ∈ stored t owner workspace := by
  rw [stored, List.map_map]
  refine List.mem_map_of_mem (f := _) (List.mem_mergeSort.mpr ?_)
  simp [Tables.filesOf, Tables.restricts, member, own, inside]

/-- An empty text names no workspace; every other one restricts what is asked for. -/
theorem mem_stored_iff {t : Tables} {owner workspace path : String} (restricting : workspace ≠ "") :
    path ∈ stored t owner workspace ↔
      ∃ r ∈ t.files, r.owner = owner ∧ r.workspace = workspace ∧ r.path = path := by
  constructor
  · intro member
    rw [stored, List.map_map] at member
    obtain ⟨r, listed, rfl⟩ := List.mem_map.mp member
    have among := List.mem_mergeSort.mp listed
    simp only [Tables.filesOf, Tables.restricts, List.mem_filter, beq_iff_eq,
      Bool.or_eq_true, restricting, false_or] at among
    exact ⟨r, among.1.1, among.1.2, among.2, rfl⟩
  · rintro ⟨r, member, own, inside, rfl⟩
    exact mem_stored member own inside

/-- What the sweep tells of are the paths of the rows that it removes. -/
theorem gone_perm {t : Tables} (sound : t.Sound) {owner workspace : String}
    (restricting : workspace ≠ "") (live : List String) :
    ((distinct (stored t owner workspace)).filter fun p => !live.contains p).Perm
      ((Index.doomed owner workspace live t).map (·.path)) := by
  have paths : ((Index.doomed owner workspace live t).map (·.path)).Nodup :=
    FileRow.nodup_paths (sound.keys.sublist (List.filter_sublist.map _)) fun r doomed =>
      ⟨(Index.mem_doomed_iff.mp doomed).2.1, (Index.mem_doomed_iff.mp doomed).2.2.1⟩
  refine (List.perm_ext_iff_of_nodup ((nodup_distinct _).filter _) paths).mpr fun p => ?_
  simp only [List.mem_filter, mem_distinct, mem_stored_iff restricting, Bool.not_eq_true',
    List.contains_eq_mem, decide_eq_false_iff_not, List.mem_map, Index.mem_doomed_iff]
  constructor
  · rintro ⟨⟨r, member, own, inside, rfl⟩, lost⟩
    exact ⟨r, ⟨member, own, inside, lost⟩, rfl⟩
  · rintro ⟨r, ⟨member, own, inside, lost⟩, rfl⟩
    exact ⟨⟨r, member, own, inside, rfl⟩, lost⟩

/-- The sweep comes to one of these. -/
theorem swept_sweep {s : Surroundings ω} {run : IndexRun τ σ ω}
    (honest : (s.conditions run.around).Honest) (settled : run.engine.index.Settled)
    (goal : RunGoal) (files : List FilePath) (unreadable : List String) :
    Swept s goal files unreadable run (run.sweep s goal files unreadable) := by
  simp only [sweep]
  split
  next f _ => exact .failed run.engine.index f settled rfl
  next summaries asked =>
    -- What was listed is what the tables have, as no answer is put in its place.
    have listed : summaries.map (·.path) =
        stored run.engine.index.tables goal.owner goal.workspace.text := by
      have answer := honest.guard_ok asked
      simp only [Index.list, Index.read] at answer
      split at answer
      · cases answer
      · rw [if_pos settled.opened] at answer
        exact congrArg _ (Except.ok.inj answer).symm
    rw [listed]
    generalize live_ : files.map (·.text) ++ (stored run.engine.index.tables goal.owner
      goal.workspace.text).filter (fun p =>
        !(files.map (·.text)).contains p && isUnderAny unreadable p) = live
    rcases honest.guardOn_cases .sweep Outage.count (Index.sweep (s.conditions run.around).faults
      goal.owner goal.workspace.text live) run.engine.index with done | ⟨f, failed⟩
    · rw [done]
      obtain ⟨after, ⟨answer, tables⟩ | ⟨f, answer, tables⟩⟩ :=
        Index.sweep_cases honest.undoable settled goal.owner goal.workspace.text live
      · rw [answer]
        refine .removed _ live _ _ after tables ?_ ?_ ?_ rfl ?_ ?_
        · intro p member
          rw [← live_]
          exact List.mem_append_left _ (List.mem_map_of_mem member)
        · intro p member
          rw [← live_] at member
          rcases List.mem_append.mp member with walked | kept
          · exact .inl walked
          · have under := (List.mem_filter.mp kept).2
            rw [Bool.and_eq_true] at under
            exact .inr under.2
        · -- A file that was removed had been listed.
          intro untold
          refine List.eq_nil_iff_forall_not_mem.mpr fun r gone => ?_
          obtain ⟨member, own, inside, lost⟩ := Index.mem_doomed_iff.mp gone
          have told := List.filter_eq_nil_iff.mp untold r.path
            (mem_distinct.mpr (mem_stored member own inside))
          exact told (by simpa using lost)
        · exact fun restricting => gone_perm settled.sound restricting live
        · -- A stored path out of reach is live, whether the walk gave it or not.
          intro r member own inside under
          rw [← live_]
          by_cases walked : r.path ∈ files.map (·.text)
          · exact List.mem_append_left _ walked
          · refine List.mem_append_right _ (List.mem_filter.mpr ⟨mem_stored member own inside, ?_⟩)
            simp [under, walked]
      · rw [answer]
        exact .failed _ f after tables
    · rw [failed]
      exact .failed _ f settled rfl

/-- Saving the structure leaves files, chunks and symbols alone, and the structures of other
workspaces. -/
theorem saveStructure_cases {s : Surroundings ω} {run : IndexRun τ σ ω}
    (honest : (s.conditions run.around).Honest) (settled : run.engine.index.Settled)
    (goal : RunGoal) : ∃ (index : Index) (workspaces : List WorkspaceRow), index.Settled ∧
      index.tables = { run.engine.index.tables with workspaces } ∧
      run.saveStructure s goal = { run with engine := { run.engine with index } } ∧
      ∀ w : WorkspaceRow, w.key ≠ (goal.owner, goal.workspace.text) →
        (w ∈ workspaces ↔ w ∈ run.engine.index.tables.workspaces) := by
  simp only [saveStructure]
  split
  · exact ⟨run.engine.index, _, settled, rfl, rfl, fun _ _ => Iff.rfl⟩
  next found _ =>
    rcases honest.guardOn_cases .saveStructure Outage.ignored
      (Index.saveStructure (s.conditions run.around).faults goal.owner goal.workspace.text found)
      run.engine.index with done | ⟨f, failed⟩
    · rw [done]
      obtain ⟨after, workspaces, tables, others⟩ := Index.saveStructure_cases honest.undoable settled
        goal.owner goal.workspace.text found
      exact ⟨_, workspaces, after, tables, rfl, others⟩
    · rw [failed]
      exact ⟨run.engine.index, _, settled, rfl, rfl, fun _ _ => Iff.rfl⟩

/-- When nothing is out of order, the sweep goes through. -/
theorem sweep_returns {s : Surroundings ω} {run : IndexRun τ σ ω}
    (order : (s.conditions run.around).InOrder) (settled : run.engine.index.Settled)
    (goal : RunGoal) (files : List FilePath) (unreadable : List String) :
    (run.sweep s goal files unreadable).1 = none := by
  have listed : run.engine.index.list Faults.none goal.owner (some goal.workspace.text) =
      .ok ((run.engine.index.tables.listed goal.owner (some goal.workspace.text)).map
        (·.summary)) := by
    simp only [Index.list, Index.read, Faults.none, settled.opened, if_true]
    rfl
  simp only [sweep, order.guard_eq, order.guardOn_eq, order.faultless, listed]
  generalize (files.map (·.text) ++ _ : List String) = live
  obtain ⟨count, removed⟩ := Index.sweep_calm settled goal.owner goal.workspace.text live
  rw [removed]

theorem finish_returns {s : Surroundings ω} {run : IndexRun τ σ ω}
    (order : (s.conditions run.around).InOrder) (settled : run.engine.index.Settled)
    (goal : RunGoal) (files : List FilePath) (unreadable : List String) :
    (run.finish s goal files unreadable).1 = none := by
  have went := sweep_returns order settled goal files unreadable
  simp only [finish]
  split
  · rfl
  · generalize run.sweep s goal files unreadable = out at went ⊢
    obtain ⟨failure, run'⟩ := out
    cases went
    rfl

/-! ### Whole runs -/

/-- A run that has dealt with no file yet and reports the faults of the walk. -/
def atStart (e : Engine τ σ) (around : ω) (faults : List ScanFault) : IndexRun τ σ ω :=
  ⟨e, around, { errors := faults.map fun f => ⟨f.path, f.error⟩ }, []⟩

/-- Every step of runs in some surroundings keeps a property of engines. A file that is dealt with
stands below a directory, and it has a path of names, as long as the tree has been one of names. -/
structure Kept (s : Surroundings ω) (P : Engine τ σ → Prop) : Prop where
  settled {e : Engine τ σ} (before : P e) : e.index.Settled
  dealt {goal : RunGoal} {path : FilePath} {run run' : IndexRun τ σ ω}
    (names : ∃ w, (s.conditions w).tree.Named → goal.workspace.Named ∧ path.Named)
    (inner : path.parts ≠ []) (dealt : Dealt s goal path run run') (before : P run.engine) :
    P run'.engine
  swept {goal : RunGoal} {files : List FilePath} {unreadable : List String} {run : IndexRun τ σ ω}
    {out : Option Failure × IndexRun τ σ ω} (swept : Swept s goal files unreadable run out)
    (before : P run.engine) : P out.2.engine
  saved {e : Engine τ σ} {index : Index} {workspaces : List WorkspaceRow}
    (settled : index.Settled) (tables : index.tables = { e.index.tables with workspaces })
    (before : P e) : P { e with index }

/-- After every step the index is settled, and the configuration is the same. -/
theorem kept_config (s : Surroundings ω) (c : EngineConfig) :
    Kept s (fun e : Engine τ σ => e.index.Settled ∧ e.config = c) where
  settled before := before.1
  dealt {goal _ run _} _ _ dealt before := by
    refine ⟨dealt.settled before.1, ?_⟩
    cases dealt with
    | cancelled off after => exact after ▸ before.2
    | failed embedder index f work settled tables engine => exact engine ▸ before.2
    | skipped embedder index read work settled tables engine => exact engine ▸ before.2
    | written embedder index read outline d embeddings work settled tables engine =>
      obtain ⟨memory, forgot⟩ := Engine.forget_engine (s.conditions run.around) goal.owner
        { run.engine with embedder, index }
      rw [engine, forgot]
      exact before.2
  swept {goal _ _ run _} swept before := by
    cases swept with
    | failed index f settled => exact ⟨settled, before.2⟩
    | removed index live gone deleted settled =>
      have told (paths : List String) (run : IndexRun τ σ ω) :
          (paths.foldl (tell s goal.owner) run).engine.config = run.engine.config := by
        induction paths generalizing run with
        | nil => rfl
        | cons path rest ih =>
          obtain ⟨memory, forgot⟩ :=
            Engine.forget_engine (s.conditions run.around) goal.owner run.engine
          exact (ih (run.tell s goal.owner path)).trans (by rw [tell, forgot])
      have same := (tellAll_same s goal.owner gone
        (({ run with engine := { run.engine with index } } : IndexRun τ σ ω).reported
          fun r => { r with deleted := deleted })).1
      exact ⟨same ▸ settled, (told gone _).trans before.2⟩
  saved settled _ before := ⟨settled, before.2⟩

section Time

set_option linter.unusedSectionVars false

variable [Add τ] [Sub τ] [LE τ] [DecidableLE τ] [LT τ] [DecidableLT τ] [OfNat τ 0]

/-- A run whose walk starts goes through the files that the walk gives, and then finishes. -/
theorem indexWorkspace_eq {s : Surroundings ω} {e : Engine τ σ} {around : ω} {root : FilePath}
    {walk : Walk} (named : (s.conditions around).tree.Named)
    (started : Walk.start e.config.scanner (s.conditions around).tree root = .ok walk)
    {files : List FilePath} {left : Walk}
    (drained : walk.drain (s.conditions around).tree = (files, left)) (now : τ) (owner : String)
    (force : Bool) :
    let goal : RunGoal := ⟨owner, (s.conditions around).tree.workspace root, force⟩
    e.indexWorkspace s now owner root force around =
      (files.foldl (process s now goal) (atStart e around left.faults)).finish s goal files
        (left.faults.map (·.path)) := by
  obtain ⟨_, start⟩ := Walk.named_start named started
  have root_ : left.root = (s.conditions around).tree.workspace root := by
    have after := (Walk.named_drain named start).2.root
    rwa [drained] at after
  simp only [Engine.indexWorkspace, started, drained, root_]
  rfl

theorem settled_processAll {s : Surroundings ω} (honest : ∀ w, (s.conditions w).Honest) (now : τ)
    (goal : RunGoal) (files : List FilePath) {run : IndexRun τ σ ω}
    (settled : run.engine.index.Settled) :
    (files.foldl (process s now goal) run).engine.index.Settled := by
  induction files generalizing run with
  | nil => exact settled
  | cons path rest ih =>
    have dealt : Dealt s goal path run (process s now goal run path) :=
      dealt_process (honest run.around) settled path
    exact ih (dealt.settled settled)

/-- When nothing is out of order, a run through a directory returns. -/
theorem indexWorkspace_returns {s : Surroundings ω} (calm : ∀ w, (s.conditions w).Calm)
    {e : Engine τ σ} (settled : e.index.Settled) {around : ω} {root : FilePath}
    (starts : ∃ walk, Walk.start e.config.scanner (s.conditions around).tree root = .ok walk)
    (now : τ) (owner : String) (force : Bool) :
    (e.indexWorkspace s now owner root force around).1 = none := by
  obtain ⟨walk, started⟩ := starts
  simp only [Engine.indexWorkspace, started]
  exact finish_returns (calm _).inOrder
    (settled_processAll (fun w => (calm w).inOrder.honest) now _ _ settled) _ _ _

variable {s : Surroundings ω} {P : Engine τ σ → Prop} (kept : Kept s P)
  (honest : ∀ w, (s.conditions w).Honest)

include kept honest

theorem Kept.processAll (now : τ) (goal : RunGoal) (files : List FilePath)
    (names : ∃ w, (s.conditions w).tree.Named → goal.workspace.Named ∧ ∀ p ∈ files, p.Named)
    (inner : ∀ p ∈ files, p.parts ≠ []) {run : IndexRun τ σ ω} (before : P run.engine) :
    P (files.foldl (process s now goal) run).engine := by
  obtain ⟨w, names⟩ := names
  -- Each file may find the surroundings changed, but the names are those of the walk.
  induction files generalizing run with
  | nil => exact before
  | cons path rest ih =>
    have first : ∃ w, (s.conditions w).tree.Named → goal.workspace.Named ∧ path.Named :=
      ⟨w, fun tree => ⟨(names tree).1, (names tree).2 path List.mem_cons_self⟩⟩
    exact ih (fun p member => inner p (List.mem_cons_of_mem _ member))
      (kept.dealt first (inner path List.mem_cons_self)
        (dealt_process (honest run.around) (kept.settled before) path) before)
      fun tree => ⟨(names tree).1, fun p member => (names tree).2 p (List.mem_cons_of_mem _ member)⟩

theorem Kept.saveStructure (goal : RunGoal) {run : IndexRun τ σ ω} (before : P run.engine) :
    P (run.saveStructure s goal).engine := by
  obtain ⟨index, workspaces, settled, tables, saved, _⟩ :=
    saveStructure_cases (honest run.around) (kept.settled before) goal
  rw [saved]
  exact kept.saved settled tables before

theorem Kept.finish (goal : RunGoal) (files : List FilePath) (unreadable : List String)
    {run : IndexRun τ σ ω} (before : P run.engine) :
    P (run.finish s goal files unreadable).2.engine := by
  have swept := kept.swept
    (swept_sweep (honest run.around) (kept.settled before) goal files unreadable) before
  simp only [IndexRun.finish]
  split
  · exact kept.saveStructure honest goal before
  · split
    next ran =>
      rw [ran] at swept
      exact swept
    next ran =>
      rw [ran] at swept
      exact kept.saveStructure honest goal swept

/-- What every step keeps is kept by a run, wherever it stops. -/
theorem Kept.indexWorkspace {e : Engine τ σ} (before : P e) (now : τ) (owner : String)
    (root : FilePath) (force : Bool) (around : ω) :
    P (e.indexWorkspace s now owner root force around).2.engine := by
  simp only [Engine.indexWorkspace]
  split
  · exact before
  next walk started =>
    refine kept.finish honest _ _ _
      (kept.processAll honest now _ _ ⟨around, fun tree => ?_⟩ Walk.parts_ne_drain before)
    obtain ⟨root_, start⟩ := Walk.named_start tree started
    obtain ⟨files, after⟩ := Walk.named_drain tree start
    exact ⟨after.root ▸ root_, files⟩

end Time

end IndexRun

end CodeAtlas
