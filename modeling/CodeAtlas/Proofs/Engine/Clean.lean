import CodeAtlas.Proofs.Config.Standard
import CodeAtlas.Proofs.Engine.Derivation

/-!
# Clean runs

A run is clean when it goes through to its end and reports no error. After a clean run over a tree
that does not change the content of every file that the walk gives stands in the index, and nothing
else does.

However an engine came to its index, after a clean run it holds of the workspace what a first run on
an empty index would write. Every row comes from a content that was once read under its path; after
a clean run the hash in the row is that of the content that the file has now; so, when contents have
different hashes, all that is held of the file is what its present content decides.

## Main results

`Engine.mirrors_indexWorkspace` says what a clean run leaves behind, `Engine.clean_of_calm` when
there is one. `Engine.indexWorkspace_converges`: it is what a first run would write.
-/

namespace CodeAtlas

/-- A report of a run that went through, without errors. -/
structure RunReport.Clean (r : RunReport) : Prop where
  errors : r.errors = []
  ongoing : r.cancelled = false

namespace Engine

variable {τ σ : Type} {t : Tree} {owner : String} {workspace path : FilePath} {e e' : Engine τ σ}

/-- The content of a file stands in the index. -/
def Stands (t : Tree) (owner : String) (workspace : FilePath) (e : Engine τ σ) (p : FilePath) :
    Prop :=
  ∃ read, ReadFile.of t p = .ok read ∧ e.storedHash owner workspace p = some read.contentHash

theorem Stands.sameTables {p : FilePath} (stands : e.Stands t owner workspace p)
    (same : e'.index.tables = e.index.tables) : e'.Stands t owner workspace p := by
  obtain ⟨read, given, stored⟩ := stands
  exact ⟨read, given, by rwa [storedHash, same]⟩

/-- A file that is written stands in the index, and all others that stood there still do. -/
theorem stands_put (sound : e.index.tables.Sound) {row : FileRow} {chunks : List IndexedChunk}
    (accepts : e.index.tables.Accepts row) (tables : e'.index.tables = e.index.tables.put row chunks)
    (key : row.key = (owner, workspace.text, path.text)) {read : ReadFile}
    (given : ReadFile.of t path = .ok read) (hash : row.contentHash = read.contentHash)
    (named : path.Named) : e'.Stands t owner workspace path ∧
      ∀ p : FilePath, p.Named → e.Stands t owner workspace p → e'.Stands t owner workspace p := by
  have own : e'.Stands t owner workspace path := by
    refine ⟨read, given, ?_⟩
    rw [storedHash, tables, Tables.file?_put sound accepts, if_pos key, Option.map_some, hash]
  refine ⟨own, fun p named' stands => ?_⟩
  -- The written row stands for one path only, as names tell paths apart.
  by_cases same : row.key = (owner, workspace.text, p.text)
  · have text : path.text = p.text := congrArg (·.2.2) (key.symm.trans same)
    exact named.eq_of_text named' text ▸ own
  · obtain ⟨read', given', stored⟩ := stands
    refine ⟨read', given', ?_⟩
    rw [storedHash, tables, Tables.file?_put sound accepts, if_neg same]
    exact stored

/-- The index has of a workspace just these files, with the contents that they have in the tree. -/
structure Mirrors (t : Tree) (owner : String) (workspace : FilePath) (files : List FilePath)
    (e : Engine τ σ) : Prop where
  stands : ∀ p ∈ files, e.Stands t owner workspace p
  only : ∀ r ∈ e.index.tables.filesIn owner workspace.text, ∃ p ∈ files, r.path = p.text

/-- Once all files stand in the index, the removal of all others leaves just these. -/
theorem mirrors_drop (sound : e.index.tables.Sound) {files : List FilePath} {live : List String}
    (stands : ∀ p ∈ files, e.Stands t owner workspace p) (walked : ∀ p ∈ files, p.text ∈ live)
    (kept : ∀ p ∈ live, p ∈ files.map (·.text)) {workspaces : List WorkspaceRow}
    (tables : e'.index.tables = { e.index.tables.drop ((Index.doomed owner workspace.text live
      e.index.tables).map (·.id)) with workspaces }) : e'.Mirrors t owner workspace files where
  stands p member := by
    obtain ⟨read, given, stored⟩ := stands p member
    obtain ⟨r, found, hash⟩ := Option.map_eq_some_iff.mp stored
    obtain ⟨row, atKey⟩ := Tables.mem_of_file? found
    -- A file of the walk is live, so its row is not dropped.
    have alive : r.id ∉ (Index.doomed owner workspace.text live e.index.tables).map (·.id) := by
      rw [Index.mem_doomed sound row]
      rintro ⟨_, _, gone⟩
      rw [show r.path = p.text from congrArg (·.2.2) atKey] at gone
      exact gone (walked p member)
    have left : e'.index.tables.file? owner workspace.text p.text = some r := by
      rw [tables]
      show (e.index.tables.drop _).file? owner workspace.text p.text = some r
      rw [Tables.file?_drop sound, found, Option.filter_some, if_pos (by simpa using alive)]
    exact ⟨read, given, by rw [storedHash, left, Option.map_some, hash]⟩
  only r member := by
    rw [Tables.mem_filesIn, tables] at member
    obtain ⟨left, own, inside⟩ := member
    obtain ⟨row, alive⟩ := (Tables.mem_drop r).mp left
    -- A row that was not dropped has a live path.
    have live_ : r.path ∈ live := by
      by_contra gone
      exact alive ((Index.mem_doomed sound row).mpr ⟨own, inside, gone⟩)
    obtain ⟨p, walked, text⟩ := List.mem_map.mp (kept _ live_)
    exact ⟨p, walked, text.symm⟩

end Engine

namespace IndexRun

variable {τ σ ω : Type} {s : Surroundings ω} {goal : RunGoal} {t : Tree} {c : EngineConfig}
  {contents : Set String} {offline : Prop}

/-! ### What a clean run leaves -/

/-- When all was clean after a file, it was before, and the content of the file stands in the index.
-/
theorem clean_dealt {path : FilePath} {run run' : IndexRun τ σ ω}
    (tree : (s.conditions run.around).tree = t) (sound : run.engine.index.tables.Sound)
    (named : path.Named) (dealt : Dealt s goal path run run') (clean : run'.report.Clean) :
    run.report.Clean ∧ run'.engine.Stands t goal.owner goal.workspace path ∧
      ∀ p : FilePath, p.Named → run.engine.Stands t goal.owner goal.workspace p →
        run'.engine.Stands t goal.owner goal.workspace p := by
  cases dealt with
  | cancelled off after =>
    rw [after] at clean
    cases clean.ongoing
  | failed embedder index f work settled tables engine report =>
    -- A failure is reported.
    have none_ := (congrArg (·.errors) report).symm.trans clean.errors
    simp [RunReport.addError] at none_
  | skipped embedder index read work settled tables engine report changed around given current =>
    have same : run'.engine.index.tables = run.engine.index.tables := by
      rw [engine]
      exact tables
    rw [report] at clean
    refine ⟨⟨clean.errors, clean.ongoing⟩, ?_,
      fun p _ stands => stands.sameTables same⟩
    exact Engine.Stands.sameTables ⟨read, tree ▸ given, current⟩ same
  | written embedder index read outline d embeddings work settled tables engine report changed around
      given outlined draft =>
    have same : run'.engine.index.tables = run.engine.index.tables.put
        (run.engine.index.tables.rowFor d.file run.engine.index.now)
        (d.embedded embeddings).chunks := by
      obtain ⟨memory, forgot⟩ := Engine.forget_engine (s.conditions run.around) goal.owner
        { run.engine with embedder, index }
      rw [engine, forgot]
      exact tables
    rw [report] at clean
    refine ⟨⟨clean.errors, clean.ongoing⟩,
      Engine.stands_put sound Tables.accepts_rowFor same ?_ (tree ▸ given) ?_ named⟩
    · rw [Tables.rowFor_key, draft]
      rfl
    · rw [Tables.rowFor_columns, Tables.rowFor_record, draft]
      rfl

/-- When all was clean at the end, it was after the files, and what the walk did not give is gone.
-/
theorem clean_finish (honest : ∀ w, (s.conditions w).Honest) {run : IndexRun τ σ ω}
    (settled : run.engine.index.Settled) {files : List FilePath} {unreadable : List String}
    (finished : (run.finish s goal files unreadable).1 = none)
    (clean : (run.finish s goal files unreadable).2.report.Clean) :
    run.report.Clean ∧ ∃ live workspaces, (∀ p ∈ files, p.text ∈ live) ∧
      (∀ p ∈ live, p ∈ files.map (·.text) ∨ isUnderAny unreadable p = true) ∧
      (run.finish s goal files unreadable).2.engine.index.tables =
        { run.engine.index.tables.drop ((Index.doomed goal.owner goal.workspace.text live
          run.engine.index.tables).map (·.id)) with workspaces } := by
  have swept := swept_sweep (honest run.around) settled goal files unreadable
  cases ongoing : run.report.cancelled with
  -- A run that was called off says so in its report.
  | true =>
    obtain ⟨index, workspaces, _, _, saved, _⟩ :=
      saveStructure_cases (honest run.around) settled goal
    simp only [finish, ongoing, if_true, saved] at clean
    exact absurd clean.ongoing (by simp [ongoing])
  | false =>
    simp only [finish, ongoing, Bool.false_eq_true, if_false] at finished clean ⊢
    generalize run.sweep s goal files unreadable = out at swept finished clean ⊢
    cases swept with
    | failed index f settled' tables => cases finished
    | removed index live gone deleted settled' tables walked kept told =>
      have same := tellAll_same s goal.owner gone
        (({ run with engine := { run.engine with index } } : IndexRun τ σ ω).reported
          fun r => { r with deleted := deleted })
      generalize gone.foldl (tell s goal.owner) _ = last at same clean ⊢
      obtain ⟨same, report, _⟩ := same
      have same : last.engine.index = index := same
      obtain ⟨index', workspaces, _, tables', saved, _⟩ :=
        saveStructure_cases (honest last.around) (same.symm ▸ settled') goal
      simp only [saved] at clean ⊢
      rw [report] at clean
      refine ⟨⟨clean.errors, ongoing⟩, live, workspaces, walked, kept, ?_⟩
      rw [tables', same, tables]

section Time

set_option linter.unusedSectionVars false

variable [Add τ] [Sub τ] [LE τ] [DecidableLE τ] [LT τ] [DecidableLT τ] [OfNat τ 0]

/-- When all was clean after some files, it was before, and their contents stand in the index. -/
theorem clean_processAll (honest : ∀ w, (s.conditions w).Honest)
    (tree : ∀ w, (s.conditions w).tree = t) (now : τ) {files : List FilePath}
    (named : ∀ p ∈ files, p.Named) {run : IndexRun τ σ ω} (settled : run.engine.index.Settled)
    (clean : (files.foldl (process s now goal) run).report.Clean) : run.report.Clean ∧
      (∀ p : FilePath, p.Named → run.engine.Stands t goal.owner goal.workspace p →
        (files.foldl (process s now goal) run).engine.Stands t goal.owner goal.workspace p) ∧
      ∀ p ∈ files,
        (files.foldl (process s now goal) run).engine.Stands t goal.owner goal.workspace p := by
  induction files generalizing run with
  | nil => exact ⟨clean, fun _ _ stands => stands, nofun⟩
  | cons path rest ih =>
    have own := named path List.mem_cons_self
    have dealt : Dealt s goal path run (process s now goal run path) :=
      dealt_process (honest run.around) settled path
    -- A clean end makes every step before it a clean one, so the induction goes from the end.
    obtain ⟨between, keeps, rest_⟩ :=
      ih (fun p member => named p (List.mem_cons_of_mem _ member)) (dealt.settled settled) clean
    obtain ⟨before, stands, keeps'⟩ :=
      clean_dealt (tree run.around) settled.sound own dealt between
    refine ⟨before, fun p named' stands' => keeps p named' (keeps' p named' stands'), ?_⟩
    intro p member
    rcases List.mem_cons.mp member with rfl | later
    · exact keeps p own stands
    · exact rest_ p later

/-! ### When a run is clean -/

/-- A file whose content decides an entry that the tables can hold, in some time. -/
def Indexable (c : EngineConfig) (t : Tree) (goal : RunGoal) (p : FilePath) : Prop :=
  ∃ read, ReadFile.of t p = .ok read ∧ Engine.Timely c ∧
    (EntryDraft.timeless c.analyzer goal.owner goal.workspace p read.content).Storable

/-- When nothing is out of order, what can be stored is written without an error. -/
theorem write_calm (goal : RunGoal) (run : IndexRun τ σ ω)
    (calm : (s.conditions run.around).Calm)
    (settled : run.engine.index.Settled) (path : FilePath) (entry : IndexEntry)
    (storable : Index.Storable entry.file entry.chunks) (clean : run.report.Clean) :
    (run.write s goal path entry).report.Clean := by
  obtain ⟨outcome, answered⟩ := Index.upsert_calm settled storable goal.force
  simp only [write, calm.inOrder.guardOn_eq, calm.faultless, answered]
  cases outcome with
  | created => exact ⟨clean.errors, clean.ongoing⟩
  | updated => exact ⟨clean.errors, clean.ongoing⟩
  | unchanged => exact ⟨clean.errors, clean.ongoing⟩

/-- When nothing is out of order and there is no provider, no file is reported. -/
theorem process_calm (positive : 0 < c.embeddings.batchSize) {run : IndexRun τ σ ω}
    (calm : (s.conditions run.around).Calm) (tree : (s.conditions run.around).tree = t)
    (derived : run.engine.Derived c contents offline) (only : offline) (now : τ) {path : FilePath}
    (indexable : Indexable c t goal path) (clean : run.report.Clean) :
    (run.process s now goal path).report.Clean := by
  obtain ⟨read, given, timely, storable⟩ := indexable
  have given : ReadFile.of (s.conditions run.around).tree path = .ok read := tree ▸ given
  obtain ⟨found, made⟩ : ∃ found, ((run.reported RunReport.countProcessed).engine.entry
      (s.conditions run.around) now goal.owner goal.workspace path goal.force).1 = .ok found :=
    Engine.entry_calm calm derived.settled.opened (derived.alone only) (derived.config ▸ timely) given
  obtain ⟨embedder, _, engine⟩ := (run.reported RunReport.countProcessed).engine.entry_engine
    (s.conditions run.around) now goal.owner goal.workspace path goal.force
  simp only [process, calm.ongoing, Bool.false_eq_true, if_false, made, engine]
  obtain ⟨read', given', ⟨rfl, _⟩ | ⟨outline, d, embeddings, outlined, draft, rfl, count, _⟩⟩ :=
    Engine.entry_ok calm.inOrder.honest made
  · exact ⟨clean.errors, clean.ongoing⟩
  · obtain rfl : read' = read := Except.ok.inj (given'.symm.trans given)
    obtain ⟨content, contentHash, modifiedAt⟩ := read'
    obtain rfl : contentHash = Digest.ofText content := ReadFile.hash_of given
    -- The entry is that of the timeless draft but for its times, which need no room.
    have alike := EntryDraft.alike_timeless c.analyzer goal.owner goal.workspace path content
      modifiedAt run.engine.index.now
    have same : d = .of c.analyzer goal.owner goal.workspace path
        ⟨content, Digest.ofText content, modifiedAt⟩ run.engine.index.now := by
      rw [draft, outlined (calm.working _), ← derived.config]
      rfl
    have count : embeddings.length = d.chunks.length :=
      count (by rwa [show (run.reported RunReport.countProcessed).engine.embedder.config =
        c.embeddings from derived.embedding])
    rw [← same] at alike
    have written := write_calm goal { run.reported RunReport.countProcessed with
        engine := { run.engine with embedder } } calm derived.settled path (d.embedded embeddings)
      ((d.storable_embedded count).mpr (alike.symm.storable storable))
      ⟨clean.errors, clean.ongoing⟩
    exact ⟨written.errors, written.ongoing⟩

theorem processAll_calm (positive : 0 < c.embeddings.batchSize)
    (calm : ∀ w, (s.conditions w).Calm) (reading : ∀ w, (s.conditions w).Reading contents)
    (tree : ∀ w, (s.conditions w).tree = t) (only : offline) (now : τ)
    (root : goal.workspace.Named) {files : List FilePath} (named : ∀ p ∈ files, p.Named)
    (indexable : ∀ p ∈ files, Indexable c t goal p) {run : IndexRun τ σ ω}
    (derived : run.engine.Derived c contents offline) (clean : run.report.Clean) :
    (files.foldl (process s now goal) run).report.Clean := by
  induction files generalizing run with
  | nil => exact clean
  | cons path rest ih =>
    have dealt : Dealt s goal path run (process s now goal run path) :=
      dealt_process (reading run.around).genuine.honest derived.settled path
    exact ih (fun p member => named p (List.mem_cons_of_mem _ member))
      (fun p member => indexable p (List.mem_cons_of_mem _ member))
      (Engine.derived_dealt positive reading root (named path List.mem_cons_self) dealt derived)
      (process_calm positive (calm run.around) (tree run.around) derived only now
        (indexable path List.mem_cons_self) clean)

end Time

/-- When nothing is out of order, a run goes through to its end. -/
theorem finish_calm {run : IndexRun τ σ ω} (calm : ∀ w, (s.conditions w).Calm)
    (settled : run.engine.index.Settled) (files : List FilePath) (unreadable : List String)
    (clean : run.report.Clean) : (run.finish s goal files unreadable).1 = none ∧
      (run.finish s goal files unreadable).2.report.Clean := by
  have saving (run' : IndexRun τ σ ω) (settled' : run'.engine.index.Settled) :
      (run'.saveStructure s goal).report = run'.report := by
    obtain ⟨index, workspaces, _, _, saved, _⟩ :=
      saveStructure_cases (calm run'.around).inOrder.honest settled' goal
    rw [saved]
  have swept := swept_sweep (calm run.around).inOrder.honest settled goal files unreadable
  have went := sweep_returns (calm run.around).inOrder settled goal files unreadable
  simp only [finish, clean.ongoing, Bool.false_eq_true, if_false]
  generalize run.sweep s goal files unreadable = out at swept went ⊢
  cases swept with
  | failed index f settled' tables => cases went
  | removed index live gone deleted settled' tables walked kept told =>
    have same := tellAll_same s goal.owner gone
      (({ run with engine := { run.engine with index } } : IndexRun τ σ ω).reported
        fun r => { r with deleted := deleted })
    generalize gone.foldl (tell s goal.owner) _ = last at same ⊢
    refine ⟨rfl, ?_⟩
    show (last.saveStructure s goal).report.Clean
    rw [saving last (same.1 ▸ settled'), same.2.1]
    exact ⟨clean.errors, clean.ongoing⟩

end IndexRun

namespace Engine

variable {τ σ ω : Type} {s : Surroundings ω} {t : Tree} {c : EngineConfig} {contents : Set String}
  {offline : Prop}

section Time

set_option linter.unusedSectionVars false

variable [Add τ] [Sub τ] [LE τ] [DecidableLE τ] [LT τ] [DecidableLT τ] [OfNat τ 0]

/-- After a clean run over a tree that does not change, the walk has inspected all of the workspace,
and the index has just the files that it gave. -/
theorem mirrors_indexWorkspace (honest : ∀ w, (s.conditions w).Honest)
    (tree : ∀ w, (s.conditions w).tree = t) (named : t.Named) {e : Engine τ σ}
    (settled : e.index.Settled) (now : τ) (owner : String) (root : FilePath) (force : Bool)
    (around : ω) (finished : (e.indexWorkspace s now owner root force around).1 = none)
    (clean : (e.indexWorkspace s now owner root force around).2.report.Clean) :
    ∃ files, t.Walks e.config.scanner root files ∧
      (e.indexWorkspace s now owner root force around).2.engine.Mirrors t owner (t.workspace root)
        files := by
  cases started : Walk.start e.config.scanner t root with
  | error fault =>
    simp only [indexWorkspace, tree around, started] at finished
    cases finished
  | ok walk =>
    obtain ⟨_, start⟩ := Walk.named_start named started
    have given := (Walk.named_drain named start).1
    cases drained : walk.drain t with | mk files left =>
    rw [drained] at given
    have here : (s.conditions around).tree = t := tree around
    have went := IndexRun.indexWorkspace_eq (here.symm ▸ named) (here.symm ▸ started)
      (here.symm ▸ drained) now owner force
    rw [here] at went
    rw [went] at finished clean ⊢
    have before : (IndexRun.atStart e around left.faults).engine.index.Settled := settled
    have dealt := IndexRun.settled_processAll honest now ⟨owner, t.workspace root, force⟩ files before
    obtain ⟨between, live, workspaces, walked, kept, tables⟩ :=
      IndexRun.clean_finish honest dealt finished clean
    obtain ⟨first, _, stands⟩ := IndexRun.clean_processAll honest tree now given before between
    -- The faults of the walk are the first errors in the report, so there were none.
    have faults : left.faults = [] := List.map_eq_nil_iff.mp first.errors
    refine ⟨files, ⟨walk, left, started, drained, faults⟩,
      mirrors_drop dealt.sound stands walked (fun p member => ?_) tables⟩
    -- With no fault nothing is kept for being out of reach.
    rcases kept p member with walked | under
    · exact walked
    · simp [faults, IndexRun.isUnderAny] at under

/-- The same of an engine whose rows come from contents that were read. -/
theorem clean_indexWorkspace (reading : ∀ w, (s.conditions w).Reading contents)
    (tree : ∀ w, (s.conditions w).tree = t)
    {e : Engine τ σ} (derived : e.Derived c contents offline) (now : τ) (owner : String)
    (root : FilePath) (force : Bool) (around : ω)
    (finished : (e.indexWorkspace s now owner root force around).1 = none)
    (clean : (e.indexWorkspace s now owner root force around).2.report.Clean) :
    ∃ files, t.Walks c.scanner root files ∧
      (e.indexWorkspace s now owner root force around).2.engine.Mirrors t owner (t.workspace root)
        files := by
  have named : t.Named := tree around ▸ (reading around).tree
  rw [← derived.config]
  exact mirrors_indexWorkspace (fun w => (reading w).genuine.honest) tree named derived.settled now
    owner root force around finished clean

/-- A run in which nothing is out of order, without a provider, is clean when every file can be
inspected and its entry stored. -/
theorem clean_of_calm (positive : 0 < c.embeddings.batchSize) (calm : ∀ w, (s.conditions w).Calm)
    (reading : ∀ w, (s.conditions w).Reading contents) (tree : ∀ w, (s.conditions w).tree = t)
    {e : Engine τ σ} (derived : e.Derived c contents offline) (only : offline) (now : τ)
    (owner : String) {root : FilePath} (force : Bool) (around : ω) {files : List FilePath}
    (walks : t.Walks c.scanner root files)
    (indexable : ∀ p ∈ files, IndexRun.Indexable c t ⟨owner, t.workspace root, force⟩ p) :
    (e.indexWorkspace s now owner root force around).1 = none ∧
      (e.indexWorkspace s now owner root force around).2.report.Clean := by
  have names : t.Named := tree around ▸ (reading around).tree
  obtain ⟨root_, named⟩ := walks.named names
  obtain ⟨w, w', started, drained, faults⟩ := walks
  obtain ⟨_, start⟩ := Walk.named_start names started
  have goal : w'.root = t.workspace root := by
    have after := (Walk.named_drain names start).2.root
    rwa [drained] at after
  simp only [indexWorkspace, tree around, derived.config, started, drained, faults, goal,
    List.map_nil]
  refine IndexRun.finish_calm calm ?_ files [] (IndexRun.processAll_calm positive calm reading tree
    only now root_ named indexable derived ⟨rfl, rfl⟩)
  exact IndexRun.settled_processAll (fun w => (reading w).genuine.honest) now _ files
    derived.settled

end Time

end Engine

/-! ## Indexing converges -/

namespace Engine

variable {τ σ : Type} {t : Tree} {owner : String} {workspace : FilePath} {files : List FilePath}
  {c : EngineConfig} {contents : Set String} {offline : Prop} {e : Engine τ σ}

/-- What is held of a file is what its present content decides. -/
theorem Mirrors.holding (mirrors : e.Mirrors t owner workspace files)
    (derived : e.Derived c contents offline) (injective : Set.InjOn Digest.ofText contents)
    (known : ∀ {path : FilePath} {read : ReadFile}, ReadFile.of t path = .ok read →
      read.content ∈ contents)
    (root : workspace.Named) (named : ∀ p ∈ files, p.Named) {p : FilePath} (member : p ∈ files) :
    ∃ r ∈ e.index.tables.filesIn owner workspace.text, r.path = p.text ∧
      ∃ read, ReadFile.of t p = .ok read ∧
        let d := EntryDraft.timeless c.analyzer owner workspace p read.content
        (e.index.tables.holding r).bare = (d.holding c.embeddings).bare ∧
          (offline → e.index.tables.holding r = d.holding c.embeddings) ∧ d.Storable ∧ Timely c := by
  obtain ⟨read, given, stored⟩ := mirrors.stands p member
  obtain ⟨r, found, hash⟩ := Option.map_eq_some_iff.mp stored
  obtain ⟨row, atKey⟩ := Tables.mem_of_file? found
  obtain ⟨rfl, inside, atPath⟩ : r.owner = owner ∧ r.workspace = workspace.text ∧
      r.path = p.text := by simpa [FileRow.key] using atKey
  exact ⟨r, Tables.mem_filesIn.mpr ⟨row, rfl, inside⟩, atPath, read, given,
    (derived.rows r row).holding derived.settled.sound row injective root (named p member) inside
      atPath (known given) (hash.trans (ReadFile.hash_of given))⟩

/-- The holdings of the workspace, or a part of them, are those that the present contents decide. -/
theorem Mirrors.mem_holdings (mirrors : e.Mirrors t owner workspace files)
    (derived : e.Derived c contents offline) (injective : Set.InjOn Digest.ofText contents)
    (known : ∀ {path : FilePath} {read : ReadFile}, ReadFile.of t path = .ok read →
      read.content ∈ contents)
    (root : workspace.Named) (named : ∀ p ∈ files, p.Named) {part : Holding → Holding}
    (part_ : part = Holding.bare ∨ part = id ∧ offline) (h : Holding) :
    h ∈ (e.index.tables.holdings owner workspace.text).map part ↔
      ∃ p ∈ files, ∃ read, ReadFile.of t p = .ok read ∧ h = part
        ((EntryDraft.timeless c.analyzer owner workspace p read.content).holding c.embeddings) := by
  have decided {p : FilePath} (member : p ∈ files) :
      ∃ r ∈ e.index.tables.filesIn owner workspace.text, r.path = p.text ∧
        ∃ read, ReadFile.of t p = .ok read ∧ part (e.index.tables.holding r) = part
          ((EntryDraft.timeless c.analyzer owner workspace p read.content).holding c.embeddings) := by
    obtain ⟨r, row, atPath, read, given, bare, full, _⟩ :=
      mirrors.holding derived injective known root named member
    refine ⟨r, row, atPath, read, given, ?_⟩
    rcases part_ with rfl | ⟨rfl, only⟩
    · exact bare
    · exact full only
  simp only [Tables.holdings, List.map_map, List.mem_map, Function.comp_apply]
  constructor
  · rintro ⟨r, row, rfl⟩
    obtain ⟨p, member, atPath⟩ := mirrors.only r row
    obtain ⟨r', row', atPath', read, given, same⟩ := decided member
    obtain ⟨stored, own, inside⟩ := Tables.mem_filesIn.mp row
    obtain ⟨stored', own', inside'⟩ := Tables.mem_filesIn.mp row'
    -- There is one row for the path.
    have key : r.key = r'.key := by
      simp only [FileRow.key, own, own', inside, inside', atPath, atPath']
    rw [derived.settled.sound.eq_of_key stored stored' key]
    exact ⟨p, member, read, given, same⟩
  · rintro ⟨p, member, read, given, rfl⟩
    obtain ⟨r, row, _, read', given', same⟩ := decided member
    obtain rfl : read' = read := Except.ok.inj (given'.symm.trans given)
    exact ⟨r, row, same⟩

/-- Two indexes that mirror the same files hold the same of them. -/
theorem holdings_agree {σ' : Type} {offline' : Prop} {e' : Engine τ σ'}
    (mirrors : e.Mirrors t owner workspace files) (mirrors' : e'.Mirrors t owner workspace files)
    (derived : e.Derived c contents offline) (derived' : e'.Derived c contents offline')
    (injective : Set.InjOn Digest.ofText contents)
    (known : ∀ {path : FilePath} {read : ReadFile}, ReadFile.of t path = .ok read →
      read.content ∈ contents)
    (root : workspace.Named) (named : ∀ p ∈ files, p.Named) {part : Holding → Holding}
    (part_ : part = Holding.bare ∨ part = id ∧ offline ∧ offline') :
    ((e.index.tables.holdings owner workspace.text).map part).Perm
      ((e'.index.tables.holdings owner workspace.text).map part) := by
  have row (h : Holding) : (part h).row = h.row := by
    rcases part_ with rfl | ⟨rfl, _⟩ <;> rfl
  refine Tables.holdings_perm derived.settled.sound derived'.settled.sound part row fun h => ?_
  rw [mirrors.mem_holdings derived injective known root named (part_.imp_right fun ⟨same, only, _⟩ =>
    ⟨same, only⟩), mirrors'.mem_holdings derived' injective known root named
      (part_.imp_right fun ⟨same, _, only⟩ => ⟨same, only⟩)]

variable {σ' ω ω' : Type} [Add τ] [Sub τ] [LE τ] [DecidableLE τ] [LT τ] [DecidableLT τ] [OfNat τ 0]

/-- After any calls, a clean run over a tree that does not change leaves of the workspace what any
clean first run on an empty index leaves: the same files with the same records, chunks and symbols,
and with the same embeddings too when there is no provider. Then a first run is clean when it has no
provider and nothing is out of order. -/
theorem indexWorkspace_converges {v : Value} {config : EngineConfig}
    (decoded : EngineConfig.decode v = .ok config) {contents : Set String}
    (injective : Set.InjOn Digest.ofText contents) {t : Tree} (duration : Float → τ)
    -- The calls, and the run that follows them.
    (settings : Settings) (provider : Option (Provider σ)) (state : σ) (clock : Int)
    (events : List (EngineEvent τ)) (reading : ∀ event ∈ events, event.Reading contents)
    {s : Surroundings ω} (last : ∀ w, (s.conditions w).Reading contents)
    (tree : ∀ w, (s.conditions w).tree = t) (now : τ) (owner : String) (root : FilePath)
    (force : Bool) (around : ω)
    -- The first run.
    (settings' : Settings) (provider' : Option (Provider σ')) (state' : σ') (clock' : Int)
    {s' : Surroundings ω'} (first : ∀ w, (s'.conditions w).Reading contents)
    (tree' : ∀ w, (s'.conditions w).tree = t) (now' : τ) (force' : Bool) (around' : ω') :
    let e := (create duration config settings provider state { clock }).after events
    let run := e.indexWorkspace s now owner root force around
    let e' := create duration config settings' provider' state' { clock := clock' }
    let run' := e'.indexWorkspace s' now' owner root force' around'
    let held := run.2.engine.index.tables.holdings owner (t.workspace root).text
    let held' := run'.2.engine.index.tables.holdings owner (t.workspace root).text
    run.1 = none → run.2.report.Clean →
      (run'.1 = none → run'.2.report.Clean →
        (held.map Holding.bare).Perm (held'.map Holding.bare) ∧
        (provider = none → provider' = none → held.Perm held')) ∧
      (provider' = none → (∀ w, (s'.conditions w).Calm) → run'.1 = none ∧ run'.2.report.Clean) := by
  intro e run e' run' held held' finished clean
  have positive := EngineConfig.batchSize_pos decoded
  have before : e.Derived config contents (provider = none) :=
    derived_after positive duration settings provider state clock reading
  have empty : e'.Derived config contents (provider' = none) :=
    derived_create duration settings' provider' state' clock'
  have after := (kept_derived positive last).indexWorkspace (fun w => (last w).genuine.honest)
    before now owner root force around
  obtain ⟨files, walks, mirrors⟩ := clean_indexWorkspace last tree before now owner root
    force around finished clean
  have known {path : FilePath} {read : ReadFile} (given : ReadFile.of t path = .ok read) :
      read.content ∈ contents := (last around).known (tree around ▸ given)
  obtain ⟨root_, named⟩ := walks.named (tree around ▸ (last around).tree)
  refine ⟨fun finished' clean' => ?_, fun alone calm => ?_⟩
  · obtain ⟨files', walks', mirrors'⟩ := clean_indexWorkspace first tree' empty now' owner
      root force' around' finished' clean'
    -- Both walks went through the same tree.
    obtain rfl : files = files' := walks.unique walks'
    have after' := (kept_derived positive first).indexWorkspace (fun w => (first w).genuine.honest)
      empty now' owner root force' around'
    refine ⟨holdings_agree mirrors mirrors' after after' injective known root_ named (.inl rfl),
      fun alone alone' => ?_⟩
    have same := holdings_agree mirrors mirrors' after after' injective known root_ named
      (.inr ⟨rfl, alone, alone'⟩)
    rwa [List.map_id, List.map_id] at same
  · refine clean_of_calm positive calm first tree' empty alone now' owner force' around' walks
      fun p member => ?_
    -- What stands in the index could be stored.
    obtain ⟨r, _, _, read, given, _, _, storable, timely⟩ :=
      mirrors.holding after injective known root_ named member
    exact ⟨read, given, timely, storable⟩

/-- A workspace is indexed; its only file is deleted, and an hour later it is indexed again. -/
theorem indexWorkspace_converges_deleted :
    let before : Tree := ⟨.dir [("a.py", .file [120] (.ofMicros 0))]⟩
    let later : Tree := ⟨.dir []⟩
    let root : FilePath := ⟨"/", []⟩
    let e := create (fun _ => (300 : Int)) .standard .standard (none : Option (Provider Unit)) ()
      { clock := 0 }
    let run := (e.after [.index (.quiet before) () 0 "o" root false,
      .wait 3600000000]).indexWorkspace (.quiet later) 3600 "o" root false ()
    let run' := e.indexWorkspace (.quiet later) 3600 "o" root false ()
    run.1 = none ∧ run.2.report.Clean ∧ run'.1 = none ∧ run'.2.report.Clean ∧
      (run.2.engine.index.tables.holdings "o" (later.workspace root).text).Perm
        (run'.2.engine.index.tables.holdings "o" (later.workspace root).text) := by
  intro before later root e run run'
  let contents : Set String := {String.ofList (Text.ofUtf8Repairing [120])}
  have names : before.Named := by decide
  have names' : later.Named := by decide
  have reads : ∀ w, ((Surroundings.quiet before).conditions w).Reading contents := by
    refine fun w => (Surroundings.calm_quiet before w).reading names fun given => ?_
    obtain ⟨place, bytes, modified, stands, content⟩ := ReadFile.file_of given
    have only : bytes = [120] := by
      cases place with
      | nil => cases stands
      | cons name rest =>
        simp only [Surroundings.quiet, before, Node.below?, Node.entries, List.lookup_cons] at stands
        cases same : name == "a.py" with
        | true =>
          rw [same] at stands
          cases rest <;> cases stands
          rfl
        | false => simp [same] at stands
    rw [content, only]
    rfl
  have reads' : ∀ w, ((Surroundings.quiet later).conditions w).Reading contents := by
    refine fun w => (Surroundings.calm_quiet later w).reading names' fun given => ?_
    obtain ⟨place, bytes, modified, stands, content⟩ := ReadFile.file_of given
    cases place <;> cases stands
  have reading : ∀ event ∈ [.index (.quiet before) () (0 : Int) "o" root false, .wait 3600000000],
      EngineEvent.Reading contents event := by
    simp only [List.forall_mem_cons]
    exact ⟨reads, trivial, List.forall_mem_nil _⟩
  have positive := EngineConfig.batchSize_pos EngineConfig.decode_nothing
  have derived := derived_after positive (fun _ => 300) .standard (none : Option (Provider Unit)) () 0
    reading
  obtain ⟨went, clean⟩ := clean_of_calm positive (Surroundings.calm_quiet later) reads'
    (fun _ => rfl) derived rfl 3600 "o" false () (.nothing _) (List.forall_mem_nil _)
  obtain ⟨agree, cleanly⟩ := indexWorkspace_converges EngineConfig.decode_nothing
    (Set.injOn_singleton _ _) (fun _ => 300) .standard none () 0 _ reading reads' (fun _ => rfl) 3600
    "o" root false () .standard (none : Option (Provider Unit)) () 0 reads' (fun _ => rfl) 3600 false ()
    went clean
  obtain ⟨went', clean'⟩ := cleanly rfl (Surroundings.calm_quiet later)
  exact ⟨went, clean, went', clean', (agree went' clean').2 rfl rfl⟩

end Engine

end CodeAtlas
