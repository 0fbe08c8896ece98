import CodeAtlas.Proofs.Config.Standard
import CodeAtlas.Proofs.Context.Project
import CodeAtlas.Proofs.Engine.Footprint
import CodeAtlas.Proofs.Engine.History
import CodeAtlas.Proofs.Engine.Repetition

/-!
# How old the project of a context is

What is kept of the project of an owner was answered by the index. A run for the owner makes the
engine forget it when it lets some change be known. A run that changes no file does not, though it
saves the structure of the workspace with the time of the run: until what was kept expires, the
project of a context still shows the structures that were saved before.

## Main results

`Engine.project_reindexed`: after a run, whatever was kept before it, the project has the numbers of
the index, and it has the workspaces of the index too, unless the run let no change be known and
what was kept before it is found. `Engine.project_reindexed_unchanged` is such a run.
-/

namespace CodeAtlas

/-- The call indexes a workspace for an owner. -/
def EngineEvent.Indexes {τ : Type} (owner : String) : EngineEvent τ → Prop
  | .index _ _ _ owner' _ _ => owner' = owner
  | _ => False

/-- The index can be asked for statistics. -/
structure Conditions.Counting (c : Conditions) : Prop where
  statistics : c.outage .statistics = none
  totals : ∀ position, c.faults position .selectTotals = none
  languages : ∀ position, c.faults position .selectLanguages = none
  frameworks : ∀ position, c.faults position .selectFrameworks = none
  workspaces : ∀ position, c.faults position .selectWorkspaces = none

namespace Engine

variable {τ σ : Type}

/-- Whatever is kept of the project of an owner goes with the statistics of the owner. -/
structure Keeps (goes : IndexStatistics → IndexStatistics → Prop) (owner : String)
    (e : Engine τ σ) : Prop where
  settled : e.index.Settled
  project : ∀ kept ∈ e.memory.projects.entries, kept.key = ContextMemory.ownerKey owner →
    ∃ s, e.index.statistics Faults.none owner = .ok s ∧ goes s kept.value

variable {goes : IndexStatistics → IndexStatistics → Prop} {owner : String} {e e' : Engine τ σ}
  {changed : List String}

theorem keeps_create (duration : Float → τ) (config : EngineConfig) (settings : Settings)
    (provider : Option (Provider σ)) (state : σ) {index : Index} (settled : index.Settled) :
    (create duration config settings provider state index).Keeps goes owner :=
  ⟨settled, fun _ member => absurd member List.not_mem_nil⟩

theorem Keeps.footprint {other : String} (apart : other ≠ owner) (keeps : e.Keeps goes owner)
    (footprint : Footprint other changed e e') : e'.Keeps goes owner where
  settled := footprint.settled
  project kept member atKey := by
    -- A run for another owner neither adds an entry nor changes the statistics.
    have old : kept ∈ e.memory.projects.entries := by
      rw [footprint.projects] at member
      split at member
      · exact member
      · exact Cache.mem_erase member
    rw [Index.statistics_agree keeps.settled.opened footprint.settled.opened
      (footprint.others owner apart.symm)]
    exact keeps.project kept old atKey

theorem Footprint.statistics_counts (footprint : Footprint owner changed e e')
    (settled : e.index.Settled) (untold : changed = []) {s : IndexStatistics}
    (answer : e.index.statistics Faults.none owner = .ok s) :
    ∃ s', e'.index.statistics Faults.none owner = .ok s' ∧ s'.counts = s.counts :=
  Index.statistics_counts settled.opened footprint.settled.opened (footprint.files untold) answer

theorem Footprint.forgotten (footprint : Footprint owner changed e e') (told : changed ≠ [])
    {kept : Cache.Entry τ IndexStatistics} (member : kept ∈ e'.memory.projects.entries) :
    kept.key ≠ ContextMemory.ownerKey owner := by
  rw [footprint.projects, if_neg told] at member
  simpa using (List.mem_filter.mp member).2

theorem source_counting {c : Conditions} (counting : c.Counting) (ix : Index) (owner : String) :
    (source c ix).statistics owner = ix.statistics Faults.none owner := by
  simp only [source, Conditions.guard, counting.statistics, Index.statistics, Index.read,
    counting.totals, counting.languages, counting.frameworks, counting.workspaces, Faults.none]

section Time

set_option linter.unusedSectionVars false

variable [Add τ] [Sub τ] [LE τ] [DecidableLE τ] [LT τ] [DecidableLT τ] [OfNat τ 0] {c : Conditions}
  {now : τ} {query : String} {path : Option String} {options : ContextOptions}

/-- The project of a context is what is kept, or what the index answers. -/
theorem sections_project (c : Conditions) (now : τ) (owner query : String) (path : Option String)
    (options : ContextOptions) (e : Engine τ σ) :
    (e.sections c now owner query path options).1.project =
      match (e.memory.projects.get now (ContextMemory.ownerKey owner)).1 with
      | some s => some s
      | none => ((source c e.index).statistics owner).toOption := by
  simp only [sections, attempts, SectionAttempts.bundle, Attempt.cutOff,
    ContextMemory.project_result, ContextMemory.relatedFiles_projects,
    ContextMemory.dependencies_projects, ContextMemory.currentFile_projects]
  cases (e.memory.projects.get now (ContextMemory.ownerKey owner)).1 <;> rfl

/-- Of the sections the project alone has a part in the projects that are kept. -/
theorem memoryAfter_projects (c : Conditions) (now : τ) (owner file : String) (e : Engine τ σ) :
    (e.memoryAfter c now owner file).projects =
      (e.memory.project (source c e.index) now owner).2.projects := by
  simp only [memoryAfter, ContextMemory.project_projects, ContextMemory.relatedFiles_projects,
    ContextMemory.dependencies_projects, ContextMemory.currentFile_projects]

/-- A retrieval, whoever asks, keeps what goes with the statistics. -/
theorem Keeps.retrieve (refl : ∀ s, goes s s) (keeps : e.Keeps goes owner) (genuine : c.Genuine)
    (now : τ) (asker query : String) (path : Option String) (options : ContextOptions) :
    (e.retrieve c now asker query path options).2.Keeps goes owner := by
  obtain ⟨embedder, memory, _, kept, same⟩ := retrieve_engine c now asker query path options _ e
  rw [same]
  refine ⟨keeps.settled, fun entry member atKey => ?_⟩
  rcases kept with rfl | rfl
  · exact keeps.project entry member atKey
  · rw [memoryAfter_projects] at member
    rcases ContextMemory.mem_project member with old | ⟨askerKey, answer⟩
    · exact keeps.project entry old atKey
    · -- The new entry is one of the owner who asked.
      have own := ContextMemory.ownerKey_injective (atKey.symm.trans askerKey)
      have told := Index.statistics_ok keeps.settled.opened (genuine.honest.guard_ok answer)
      exact ⟨entry.value, own ▸ told, refl _⟩

theorem Keeps.apply (refl : ∀ s, goes s s) (keeps : e.Keeps goes owner) {event : EngineEvent τ}
    (genuine : event.Genuine) (apart : ¬ event.Indexes owner) :
    (e.apply event).Keeps goes owner := by
  cases event with
  | index s around now other root force =>
    exact keeps.footprint apart (IndexRun.footprint_indexWorkspace (fun w => (genuine w).honest)
      keeps.settled now other root force around)
  | retrieve c now asker query path options =>
    exact keeps.retrieve refl genuine now asker query path options
  | wait micros => exact ⟨keeps.settled.later _, keeps.project⟩

/-- The same numbers, with whatever workspaces. -/
def SameCounts (s kept : IndexStatistics) : Prop :=
  kept.counts = s.counts

/-- Every call keeps the numbers right. -/
theorem Keeps.apply_counts (keeps : e.Keeps SameCounts owner) {event : EngineEvent τ}
    (genuine : event.Genuine) : (e.apply event).Keeps SameCounts owner := by
  by_cases own : event.Indexes owner
  · cases event with
    | index s around now other root force =>
      obtain rfl : other = owner := own
      have footprint := IndexRun.footprint_indexWorkspace (fun w => (genuine w).honest)
        keeps.settled now other root force around
      refine ⟨footprint.settled, fun kept member atKey => ?_⟩
      by_cases untold : (e.indexWorkspace s now other root force around).2.changed = []
      · -- What was kept stays, and so do the files that it counts.
        have old : kept ∈ e.memory.projects.entries := by
          have stayed := footprint.projects
          rw [if_pos untold] at stayed
          exact stayed ▸ member
        obtain ⟨s, answer, counts⟩ := keeps.project kept old atKey
        obtain ⟨s', answer', same⟩ := footprint.statistics_counts keeps.settled untold answer
        exact ⟨s', answer', counts.trans same.symm⟩
      · exact absurd atKey (footprint.forgotten untold member)
    | retrieve c now asker query path options => exact own.elim
    | wait micros => exact own.elim
  · exact keeps.apply (fun s => (rfl : s.counts = s.counts)) genuine own

/-- After a run the project of a context has the numbers of the index, whatever was kept before the
run and whatever the engine is called for after it, other than to index for the owner. The workspaces
are those of the index too, unless the run let no change be known: then it may be what was kept
before the run. -/
theorem project_reindexed (duration : Float → τ) (config : EngineConfig) (settings : Settings)
    (provider : Option (Provider σ)) (state : σ) (clock : Int) (calls : List IndexCall)
    (before : List (EngineEvent τ)) (first : ∀ event ∈ before, event.Genuine) {ω : Type}
    {s : Surroundings ω} (genuine : ∀ w, (s.conditions w).Genuine) (now : τ) (owner : String)
    (root : FilePath) (force : Bool) (around : ω) (later : List (EngineEvent τ))
    (then_ : ∀ event ∈ later, event.Genuine) (apart : ∀ event ∈ later, ¬ event.Indexes owner)
    (counting : c.Counting) (asked : τ) (query : String) (path : Option String)
    (options : ContextOptions) :
    let e := (create duration config settings provider state (Index.replay clock calls).2).after
      before
    let run := (e.indexWorkspace s now owner root force around).2
    let last := run.engine.after later
    let current := (last.index.statistics Faults.none owner).toOption
    let found := (last.sections c asked owner query path options).1.project
    found.map (·.counts) = current.map (·.counts) ∧
      (found = current ∨ run.changed = [] ∧ ∃ kept ∈ e.memory.projects.entries,
        kept.key = ContextMemory.ownerKey owner ∧ found = some kept.value) := by
  intro e run last current found
  have earlier : e.Keeps SameCounts owner :=
    after_induction (P := Keeps SameCounts owner) (fun _ _ genuine keeps => keeps.apply_counts genuine)
      (keeps_create duration config settings provider state (Index.replay_settled clock calls)) first
  have footprint := IndexRun.footprint_indexWorkspace (fun w => (genuine w).honest) earlier.settled
    now owner root force around
  -- What is kept is what the index answers, or it was kept before a run that told nothing.
  let goes (s kept : IndexStatistics) : Prop := kept = s ∨ (run.changed = [] ∧ SameCounts s kept ∧
    ∃ old ∈ e.memory.projects.entries, old.key = ContextMemory.ownerKey owner ∧ kept = old.value)
  have indexed : run.engine.Keeps goes owner := by
    refine ⟨footprint.settled, fun kept member atKey => ?_⟩
    by_cases untold : run.changed = []
    · have old : kept ∈ e.memory.projects.entries := by
        have stayed := footprint.projects
        rw [if_pos untold] at stayed
        exact stayed ▸ member
      obtain ⟨s, answer, counts⟩ := earlier.project kept old atKey
      obtain ⟨s', answer', same⟩ := footprint.statistics_counts earlier.settled untold answer
      exact ⟨s', answer', .inr ⟨untold, counts.trans same.symm, kept, old, atKey, rfl⟩⟩
    · exact absurd atKey (footprint.forgotten untold member)
  have kept : last.Keeps goes owner :=
    after_induction (P := Keeps goes owner) (Q := fun event => event.Genuine ∧ ¬ event.Indexes owner)
      (fun _ _ both keeps => keeps.apply (fun _ => .inl rfl) both.1 both.2) indexed
      fun event member => ⟨then_ event member, apart event member⟩
  have shown := sections_project c asked owner query path options last
  rw [source_counting counting] at shown
  cases value : (last.memory.projects.get asked (ContextMemory.ownerKey owner)).1 with
  | none =>
    rw [value] at shown
    exact ⟨congrArg _ shown, .inl shown⟩
  | some v =>
    rw [value] at shown
    obtain ⟨entry, member, atKey, rfl⟩ := Cache.get_found value
    obtain ⟨s, answer, goes⟩ := kept.project entry member atKey
    have now_ : current = some s := congrArg Except.toOption answer
    have shown : found = some entry.value := shown
    rw [shown, now_]
    rcases goes with same | ⟨untold, counts, old, among, key, same⟩
    · rw [same]
      exact ⟨rfl, .inl rfl⟩
    · exact ⟨congrArg some counts, .inr ⟨untold, old, among, key, congrArg some same⟩⟩

/-- A context is asked for; then a workspace is indexed, for another owner too, and some time
passes. -/
theorem project_reindexed_twice :
    let tree : Tree := ⟨.dir [("a.py", .file [120] (.ofMicros 0))]⟩
    let c : Conditions := { tree }
    let later : List (EngineEvent Int) := [.wait 1000000,
      .index (.quiet tree) () 3 "p" ⟨"/", []⟩ false, .retrieve c 4 "p" "x" (some "/a.py") {}]
    let e : Engine Int Unit := (create (fun _ => 300) .standard .standard none ()
      (Index.replay 0 []).2).after [.retrieve c 1 "o" "x" none {}]
    let run := (e.indexWorkspace (.quiet tree) 2 "o" ⟨"/", []⟩ false ()).2
    let last := run.engine.after later
    let current := (last.index.statistics Faults.none "o").toOption
    let found := (last.sections c 5 "o" "x" none {}).1.project
    found.map (·.counts) = current.map (·.counts) ∧
      (found = current ∨ run.changed = [] ∧ ∃ kept ∈ e.memory.projects.entries,
        kept.key = ContextMemory.ownerKey "o" ∧ found = some kept.value) := by
  intro tree c later
  have apart : "p" ≠ "o" := by decide
  have calm : c.Calm := Conditions.calm_tree tree
  have quiet (w : Unit) : ((Surroundings.quiet tree).conditions w).Genuine :=
    (Surroundings.calm_quiet tree w).genuine
  refine project_reindexed (fun _ => 300) .standard .standard none () 0 []
    [.retrieve c 1 "o" "x" none {}] ?_ quiet 2 "o" ⟨"/", []⟩ false () later ?_ ?_ (c := c) ?_ 5 "x"
    none {}
  · exact List.forall_mem_singleton.mpr calm.genuine
  · simp only [later, List.forall_mem_cons]
    exact ⟨trivial, quiet, calm.genuine, nofun⟩
  · simp only [later, List.forall_mem_cons]
    exact ⟨nofun, apart, nofun, nofun⟩
  · exact ⟨rfl, fun _ => rfl, fun _ => rfl, fun _ => rfl, fun _ => rfl⟩

end Time

end Engine

/-! ### Runs that change no file -/

namespace IndexRun

variable {τ σ ω : Type} {s : Surroundings ω} {goal : RunGoal} {run : IndexRun τ σ ω}

theorem saveStructure_calm (order : (s.conditions run.around).InOrder)
    (settled : run.engine.index.Settled) {found : ProjectStructure}
    (detected : ProjectStructure.detect (s.conditions run.around).tree goal.workspace = .ok found) :
    ∃ (index : Index) (time : Timestamp), index.tables = run.engine.index.tables.putWorkspace
        ⟨goal.owner, goal.workspace.text, found, time⟩ ∧
      run.saveStructure s goal = { run with engine := { run.engine with index } } := by
  simp only [saveStructure, detected, order.guardOn_eq, order.faultless]
  exact ⟨_, _, Index.saveStructure_calm settled goal.owner goal.workspace.text found, rfl⟩

end IndexRun

namespace Engine

variable {τ σ ω : Type}
variable [Add τ] [Sub τ] [LE τ] [DecidableLE τ] [LT τ] [DecidableLT τ] [OfNat τ 0]

/-- A run that finds all files current saves the structure of the workspace, and leaves all that is
kept. -/
theorem indexWorkspace_saves {s : Surroundings ω} (calm : ∀ w, (s.conditions w).Calm) {t : Tree}
    (tree : ∀ w, (s.conditions w).tree = t) (named : t.Named) {e : Engine τ σ}
    (settled : e.index.Settled) {root : FilePath} {files : List FilePath}
    (walks : t.Walks e.config.scanner root files) {owner : String}
    (stand : ∀ p ∈ files, e.Stands t owner (t.workspace root) p)
    (only : ∀ r ∈ e.index.tables.filesIn owner (t.workspace root).text,
      ∃ p ∈ files, r.path = p.text) {found : ProjectStructure}
    (detected : ProjectStructure.detect t (t.workspace root) = .ok found) (now : τ) (w : ω) :
    let out := e.indexWorkspace s now owner root false w
    out.1 = none ∧ out.2.changed = [] ∧ out.2.engine.memory = e.memory ∧
      ∃ time, out.2.engine.index.tables =
        e.index.tables.putWorkspace ⟨owner, (t.workspace root).text, found, time⟩ := by
  intro out
  let goal : RunGoal := ⟨owner, t.workspace root, false⟩
  let passed := (IndexRun.atStart e w []).passedOver s files
  have went : out = passed.finish s goal files [] :=
    indexWorkspace_current calm tree named settled walks stand now w
  have ready : passed.engine.index.Settled := settled
  obtain ⟨index, after, tables, finished⟩ := IndexRun.finish_walked goal
    (calm passed.around).inOrder ready rfl (walks.named named).1.text_ne [] only
  let swept : IndexRun τ σ ω := { passed with
    engine := { passed.engine with index }
    report := { passed.report with deleted := 0 } }
  have settled_ : swept.engine.index.Settled := after
  have detected_ : ProjectStructure.detect (s.conditions swept.around).tree goal.workspace =
      .ok found := (tree swept.around).symm ▸ detected
  obtain ⟨index', time, tables', saved⟩ := IndexRun.saveStructure_calm
    (calm swept.around).inOrder settled_ detected_
  rw [went.trans (finished.trans (congrArg (Prod.mk none) saved))]
  exact ⟨rfl, rfl, rfl, time, tables ▸ tables'⟩

/-- A project that was answered outlives a run that changes no file: until it expires contexts show
it as it was, while the run has saved the structure of the workspace. -/
theorem project_outlives {e : Engine τ σ} (settled : e.index.Settled) {c : Conditions}
    (calm : c.Calm) {owner : String} {saved : IndexStatistics}
    (answer : e.index.statistics Faults.none owner = .ok saved)
    (holds : 0 < e.memory.projects.capacity)
    (absent : e.memory.projects.entry? (ContextMemory.ownerKey owner) = none) {asked later : τ}
    (lives : ¬ asked + e.memory.projects.lifetime ≤ later) (query : String) (path : Option String)
    (options : ContextOptions) {s : Surroundings ω} (quiet : ∀ w, (s.conditions w).Calm) {t : Tree}
    (tree : ∀ w, (s.conditions w).tree = t) (named : t.Named) {root : FilePath}
    {files : List FilePath} (walks : t.Walks e.config.scanner root files)
    (stand : ∀ p ∈ files, e.Stands t owner (t.workspace root) p)
    (only : ∀ r ∈ e.index.tables.filesIn owner (t.workspace root).text,
      ∃ p ∈ files, r.path = p.text) {found : ProjectStructure}
    (detected : ProjectStructure.detect t (t.workspace root) = .ok found) (now : τ) (w : ω) :
    let asker := (e.retrieve c asked owner query path options).2
    let run := asker.indexWorkspace s now owner root false w
    run.1 = none ∧ run.2.changed = [] ∧
      (run.2.engine.sections c later owner query path options).1.project = some saved ∧
      ∃ time,
        let after := e.index.tables.putWorkspace ⟨owner, (t.workspace root).text, found, time⟩
        run.2.engine.index.statistics Faults.none owner =
          Tables.tally (after.filesOf owner) (after.workspacesOf owner) := by
  intro asker run
  obtain ⟨embedder, same⟩ :=
    retrieve_keeps (calm.working .retrieve) asked owner query path options e
  have same : asker = _ := same
  have told : (source c e.index).statistics owner = .ok saved := by
    simp only [source, calm.inOrder.guard_eq, calm.faultless, answer]
  have index_ : asker.index = e.index := retrieve_index c asked owner query path options e
  have config : asker.config = e.config := congrArg (·.config) same
  have kept : (asker.memory.projects.get later (ContextMemory.ownerKey owner)).1 = some saved := by
    rw [same, memoryAfter_projects]
    exact ContextMemory.project_again holds absent told lives
  have ready : asker.index.Settled := index_.symm ▸ settled
  have after := (IndexRun.footprint_indexWorkspace (fun w => (quiet w).inOrder.honest) ready now
    owner root false w).settled
  obtain ⟨returned, unchanged, memory, time, tables⟩ := indexWorkspace_saves quiet tree named ready
    (config.symm ▸ walks)
    (fun p member => (stand p member).sameTables (congrArg (·.tables) index_))
    (index_.symm ▸ only) detected now w
  refine ⟨returned, unchanged, ?_, time, ?_⟩
  rotate_left
  · rw [Index.statistics_calm after.opened, tables, index_]
  rw [sections_project]
  show (match (run.2.engine.memory.projects.get later (ContextMemory.ownerKey owner)).1 with
    | some s => some s
    | none => _) = some saved
  rw [show run.2.engine.memory = asker.memory from memory, kept]

/-- A workspace with nothing in it shows no kind of project. -/
theorem detect_nothing : ProjectStructure.detect ⟨.dir []⟩ ⟨"/", []⟩ = .ok {} := by
  cbv

/-- A workspace that was saved as one of another kind has become empty. The run saves that; a context
of the next moment still shows the project that was kept before the run. -/
theorem project_reindexed_unchanged :
    let tree : Tree := ⟨.dir []⟩
    let c : Conditions := { tree }
    let e : Engine Int Unit := (create (fun _ => 300) .standard .standard none () (Index.replay 0
        [⟨.structure_ "o" "/" { type := "go" }, Faults.none, Faults.none_undoable, 0⟩]).2).after
      [.retrieve c 1 "o" "x" none {}]
    let run := e.indexWorkspace (.quiet tree) 2 "o" ⟨"/", []⟩ false ()
    let current := (run.2.engine.index.statistics Faults.none "o").toOption
    let found := (run.2.engine.sections c 3 "o" "x" none {}).1.project
    run.1 = none ∧ found.map (·.workspaces.map (·.structure_.type)) = some ["go"] ∧
      current.map (·.workspaces.map (·.structure_.type)) = some ["unknown"] := by
  intro tree c e run current found
  let first : Engine Int Unit := create (fun _ => 300) .standard .standard none () (Index.replay 0
    [⟨.structure_ "o" "/" { type := "go" }, Faults.none, Faults.none_undoable, 0⟩]).2
  let saved : IndexStatistics := { workspaces := [⟨"/", { type := "go" }, some (.ofMicros 0)⟩] }
  have settled : first.index.Settled := Index.replay_settled 0 _
  have answer : first.index.statistics Faults.none "o" = .ok saved := by
    rw [Index.statistics_calm settled.opened]
    cbv
  have root : tree.workspace ⟨"/", []⟩ = ⟨"/", []⟩ := by cbv
  have only : ∀ r ∈ first.index.tables.filesIn "o" (tree.workspace ⟨"/", []⟩).text,
      ∃ p ∈ ([] : List FilePath), r.path = p.text := by
    intro r member
    have none_ : first.index.tables.files = [] := rfl
    rw [Tables.filesIn, none_] at member
    exact absurd member List.not_mem_nil
  have lives : ¬ (1 : Int) + first.memory.projects.lifetime ≤ 3 := by decide
  have walks : tree.Walks first.config.scanner ⟨"/", []⟩ [] := .nothing _
  have stand : ∀ p ∈ ([] : List FilePath), first.Stands tree "o" (tree.workspace ⟨"/", []⟩) p :=
    fun _ member => absurd member List.not_mem_nil
  obtain ⟨returned, _, shown, time, counted⟩ := project_outlives settled (Conditions.calm_tree tree)
    answer (by decide) rfl lives "x" none {} (Surroundings.calm_quiet tree)
    (fun _ => rfl) (by decide) walks stand only (root.symm ▸ detect_nothing) 2 ()
  refine ⟨returned, ?_, ?_⟩
  · rw [show found = some saved from shown]
    rfl
  · rw [show current = _ from congrArg Except.toOption counted, root]
    cbv

end Engine

end CodeAtlas
