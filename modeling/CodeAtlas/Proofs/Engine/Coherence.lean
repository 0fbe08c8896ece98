import CodeAtlas.Proofs.Config.Standard
import CodeAtlas.Proofs.Engine.History
import CodeAtlas.Proofs.Index.History

/-!
# What an engine keeps is never stale

Whenever a run changes what an owner has in the index, it forgets what is kept of that owner before
anything else is asked. So what is kept stays coherent with the index, and the sections of a context
that come from files are those that an engine with nothing kept would find.

## Main results

`Engine.coherent_apply`: a call keeps an engine coherent. `Engine.sections_fresh`: after any calls
the sections do not depend on what is kept.
-/

namespace CodeAtlas

namespace Engine

variable {τ σ ω : Type}

/-- Nothing is under way in the index, and what is kept is what the index answers. -/
structure Coherent (e : Engine τ σ) : Prop where
  settled : e.index.Settled
  kept : ContextMemory.Coherent (e.index.linkSource Faults.none)
    e.config.retrieval.contentPreviewChars e.config.retrieval.maxCandidatesPerSymbol e.memory

theorem coherent_create (duration : Float → τ) (config : EngineConfig) (settings : Settings)
    (provider : Option (Provider σ)) (state : σ) {index : Index} (settled : index.Settled) :
    (create duration config settings provider state index).Coherent :=
  ⟨settled, ContextMemory.coherent_empty _ duration config.retrieval⟩

/-- The same answers keep an engine coherent. -/
theorem Coherent.sameTables {e : Engine τ σ} (coherent : e.Coherent) (embedder : Embedder τ σ)
    {index : Index} (settled : index.Settled)
    (same : ∀ owner, Tables.SameFor owner e.index.tables index.tables) :
    ({ e with embedder, index } : Engine τ σ).Coherent :=
  ⟨settled, coherent.kept.follow fun owner =>
    Index.follows_of_sameFor coherent.settled.opened settled.opened (same owner)⟩

/-- An engine forgets an owner. -/
theorem forget_eq {c : Conditions} (genuine : c.Genuine) (owner : String) (e : Engine τ σ) :
    (e.forget c owner).2 =
      { e with memory := (e.memory.forgetViews owner).forgetLinks owner } := by
  simp only [forget, genuine.forgetting]

/-- When an owner is forgotten, only the answers to others have to be the same. -/
theorem Coherent.forget {e : Engine τ σ} (coherent : e.Coherent) (embedder : Embedder τ σ)
    {index : Index} (settled : index.Settled) {c : Conditions} (genuine : c.Genuine)
    {gone : String}
    (same : ∀ owner, owner ≠ gone → Tables.SameFor owner e.index.tables index.tables) :
    (({ e with embedder, index } : Engine τ σ).forget c gone).2.Coherent := by
  rw [forget_eq genuine]
  exact ⟨settled, coherent.kept.forget fun owner other =>
    Index.follows_of_sameFor coherent.settled.opened settled.opened (same owner other)⟩

/-! ### Runs -/

section Runs

variable {s : Surroundings ω} (genuine : ∀ w, (s.conditions w).Genuine) {goal : RunGoal}

include genuine

theorem coherent_tell {run : IndexRun τ σ ω} (coherent : run.engine.Coherent) (owner path : String) :
    (run.tell s owner path).engine.Coherent :=
  coherent.forget run.engine.embedder coherent.settled (genuine _) fun _ _ => .of_eq rfl

theorem coherent_tellAll {run : IndexRun τ σ ω} (coherent : run.engine.Coherent) (owner : String)
    (paths : List String) : (paths.foldl (IndexRun.tell s owner) run).engine.Coherent := by
  induction paths generalizing run with
  | nil => exact coherent
  | cons path rest ih => exact ih (coherent_tell genuine coherent owner path)

/-- Dealing with a file keeps an engine coherent. -/
theorem coherent_dealt {path : FilePath} {run run' : IndexRun τ σ ω}
    (dealt : IndexRun.Dealt s goal path run run') (coherent : run.engine.Coherent) :
    run'.engine.Coherent := by
  cases dealt with
  | cancelled off after =>
    rw [after]
    exact coherent
  | failed embedder index f work settled tables engine =>
    rw [engine]
    exact coherent.sameTables embedder settled fun _ => .of_eq tables
  | skipped embedder index read work settled tables engine =>
    rw [engine]
    exact coherent.sameTables embedder settled fun _ => .of_eq tables
  | written embedder index read outline d embeddings work settled tables engine report changed around
      given outlined draft =>
    rw [engine]
    refine coherent.forget embedder settled (genuine _) fun owner other => ?_
    rw [tables]
    refine Tables.sameFor_put coherent.settled.sound Tables.accepts_rowFor fun own => ?_
    have key : (run.engine.index.tables.rowFor d.file run.engine.index.now).owner = d.file.owner :=
      congrArg Prod.fst Tables.rowFor_key
    rw [key, draft] at own
    exact other own.symm

theorem coherent_swept {files : List FilePath} {unreadable : List String} {run : IndexRun τ σ ω}
    {out : Option Failure × IndexRun τ σ ω}
    (swept : IndexRun.Swept s goal files unreadable run out) (coherent : run.engine.Coherent) :
    out.2.engine.Coherent := by
  cases swept with
  | failed index f settled tables =>
    exact coherent.sameTables run.engine.embedder settled fun _ => .of_eq tables
  | removed index live gone deleted settled tables walked kept told =>
    cases gone with
    | nil =>
      -- Nothing was told, so nothing was removed.
      refine coherent.sameTables run.engine.embedder settled fun _ => .of_eq ?_
      rw [tables, told rfl]
      exact Tables.drop_nil
    | cons first rest =>
      refine coherent_tellAll genuine (coherent.forget run.engine.embedder settled (genuine _)
        fun owner other => ?_) goal.owner rest
      rw [tables]
      refine Tables.sameFor_drop fun r member removed own => ?_
      rw [Index.mem_doomed coherent.settled.sound member] at removed
      exact other (own.symm.trans removed.1)

/-- The steps of runs keep engines coherent. -/
theorem kept_coherent : IndexRun.Kept s (Coherent : Engine τ σ → Prop) where
  settled coherent := coherent.settled
  dealt _ _ dealt := coherent_dealt genuine dealt
  swept swept := coherent_swept genuine swept
  saved {e _ workspaces} settled tables coherent :=
    coherent.sameTables e.embedder settled fun _ => tables ▸ Tables.sameFor_workspaces workspaces

end Runs

section Time

set_option linter.unusedSectionVars false

variable [Add τ] [Sub τ] [LE τ] [DecidableLE τ] [LT τ] [DecidableLT τ] [OfNat τ 0]

/-- What the sections ask of the index is answered as the index answers. -/
theorem source_follows {c : Conditions} (genuine : c.Genuine) (ix : Index) (owner : String) :
    (source c ix).links.Follows owner (ix.linkSource Faults.none) where
  records answer := (Index.follows_calm c.faults ix owner).records (genuine.honest.guard_ok answer)
  summaries answer := (Index.follows_calm c.faults ix owner).summaries (genuine.honest.guard_ok answer)

/-- A retrieval keeps an engine coherent. -/
theorem coherent_retrieve {c : Conditions} (genuine : c.Genuine) {e : Engine τ σ}
    (coherent : e.Coherent) (now : τ) {owner : String} (plain : CodeAtlas.Plain owner)
    (query : String) (path : Option String) (options : ContextOptions) :
    (e.retrieve c now owner query path options).2.Coherent := by
  obtain ⟨embedder, memory, work, kept, same⟩ := retrieve_engine c now owner query path options _ e
  have follows := source_follows genuine e.index owner
  have asked : ContextMemory.Coherent (e.index.linkSource Faults.none)
      e.config.retrieval.contentPreviewChars e.config.retrieval.maxCandidatesPerSymbol
      (e.memoryAfter c now owner (path.getD "")) :=
    (((coherent.kept.currentFile follows plain now _).dependencies follows plain now _ _).relatedFiles
      follows plain now _ _).project now
  rw [same]
  rcases kept with rfl | rfl
  · exact ⟨coherent.settled, coherent.kept⟩
  · exact ⟨coherent.settled, asked⟩

/-- A call keeps an engine coherent. -/
theorem coherent_apply {e : Engine τ σ} {event : EngineEvent τ}
    (genuine : event.Genuine) (plain : event.Plain) (coherent : e.Coherent) :
    (e.apply event).Coherent := by
  cases event with
  | index s around now owner root force =>
    exact (kept_coherent genuine).indexWorkspace (fun w => (genuine w).honest) coherent now owner root
      force around
  | retrieve c now owner query path options =>
    exact coherent_retrieve genuine coherent now plain query path options
  | wait micros =>
    exact coherent.sameTables e.embedder (coherent.settled.later _) fun _ => .of_eq rfl

end Time

end Engine

/-! ### Retrievals -/

/-- The index can be asked for records and for the files that use a symbol. -/
structure Conditions.Answering (c : Conditions) : Prop where
  recordsAt : c.outage .recordsAt = none
  exporters : c.outage .exporters = none
  importers : c.outage .importers = none
  records : ∀ position, c.faults position .selectRecords = none
  symbolFiles : ∀ position, c.faults position .selectSymbolFiles = none

namespace Engine

variable {τ σ : Type}

theorem source_answering {c : Conditions} (answering : c.Answering) (ix : Index) :
    (source c ix).links = ix.linkSource Faults.none := by
  have records (owner path : String) : c.guard .recordsAt (Outage.records "file_path")
      (ix.recordsAt c.faults owner path) = ix.recordsAt Faults.none owner path := by
    simp only [Conditions.guard, answering.recordsAt, Index.recordsAt, Index.read,
      answering.records, Faults.none]
  have files (owner symbol : String) (limit : Int) (use : SymbolUse) :
      ix.symbolFiles c.faults owner symbol use limit =
        ix.symbolFiles Faults.none owner symbol use limit := by
    simp only [Index.symbolFiles, Index.read, answering.symbolFiles, Faults.none]
  simp only [source, Index.linkSource, records, files, LinkSource.mk.injEq, true_and]
  funext owner symbol use limit
  cases use with
  | exported => simp only [Conditions.guard, answering.exporters]
  | imported => simp only [Conditions.guard, answering.importers]

variable [Add τ] [Sub τ] [LE τ] [DecidableLE τ] [LT τ] [DecidableLT τ] [OfNat τ 0]

/-- Whatever an engine was called for, the current file, the linked files and the dependencies that
the next retrieval finds are those that it would find with nothing kept. -/
theorem sections_fresh (duration : Float → τ) (config : EngineConfig) (settings : Settings)
    (provider : Option (Provider σ)) (state : σ) (clock : Int) (calls : List IndexCall)
    (events : List (EngineEvent τ)) (genuine : ∀ event ∈ events, event.Genuine)
    (plain : ∀ event ∈ events, event.Plain) {c : Conditions} (answering : c.Answering) (now : τ)
    {owner : String} (asker : CodeAtlas.Plain owner) (query : String) (path : Option String)
    (options : ContextOptions) :
    let e := (create duration config settings provider state (Index.replay clock calls).2).after
      events
    let fresh := { e with memory := .empty duration e.config.retrieval }
    let found := (e.sections c now owner query path options).1
    let anew := (fresh.sections c now owner query path options).1
    found.currentFile = anew.currentFile ∧ found.relatedFiles = anew.relatedFiles ∧
      found.dependencies = anew.dependencies := by
  intro e fresh found anew
  have coherent : e.Coherent :=
    after_induction (P := Coherent) (Q := fun event => event.Genuine ∧ event.Plain)
      (fun _ _ both before => coherent_apply both.1 both.2 before)
      (coherent_create duration config settings provider state
        (Index.replay_settled clock calls))
      fun event member => ⟨genuine event member, plain event member⟩
  have links := source_answering answering e.index
  have follows : (source c e.index).links.Follows owner (source c e.index).links := .refl _
  have kept : ContextMemory.Coherent (source c e.index).links e.config.retrieval.contentPreviewChars
      e.config.retrieval.maxCandidatesPerSymbol e.memory := links ▸ coherent.kept
  have none_ : ContextMemory.Coherent (source c e.index).links
      e.config.retrieval.contentPreviewChars e.config.retrieval.maxCandidatesPerSymbol
      (.empty duration e.config.retrieval) :=
    ContextMemory.coherent_empty _ duration e.config.retrieval
  have kept' := kept.currentFile follows asker now (path.getD "")
  have none' := none_.currentFile follows asker now (path.getD "")
  have kept'' := kept'.dependencies follows asker now e.config.retrieval.keyFunctionsPerDependency
    (path.getD "")
  have none'' := none'.dependencies follows asker now e.config.retrieval.keyFunctionsPerDependency
    (path.getD "")
  exact ⟨Attempt.found_congr (ContextMemory.currentFile_fresh kept none_ asker now _) none,
    Attempt.found_congr (ContextMemory.relatedFiles_fresh kept'' none'' asker now _ _) [],
    Attempt.found_congr (ContextMemory.dependencies_fresh kept' none' asker now _ _) []⟩

/-- A workspace is indexed and a context is asked for; when an hour has passed and a file has
changed, all of it is indexed again. -/
theorem sections_fresh_reindexed :
    let first : Conditions := { tree := ⟨.dir [("a.py", .file [120] (.ofMicros 0))]⟩ }
    let then_ : Conditions := { tree := ⟨.dir [("a.py", .file [121] (.ofMicros 1))]⟩ }
    let events : List (EngineEvent Int) :=
      [.index (.quiet first.tree) () 0 "o" ⟨"/", []⟩ false,
        .retrieve first 1 "o" "x" (some "/a.py") {}, .wait 3600000000,
        .index (.quiet then_.tree) () 3600 "o" ⟨"/", []⟩ true]
    let e := (create (fun _ => 300) .standard .standard (none : Option (Provider Unit)) ()
      (Index.replay 0 []).2).after events
    let fresh := { e with memory := .empty (fun _ => 300) e.config.retrieval }
    let found := (e.sections then_ 3601 "o" "x" (some "/a.py") {}).1
    let anew := (fresh.sections then_ 3601 "o" "x" (some "/a.py") {}).1
    found.currentFile = anew.currentFile ∧ found.relatedFiles = anew.relatedFiles ∧
      found.dependencies = anew.dependencies := by
  intro first then_ events
  have asker : CodeAtlas.Plain "o" := by decide
  refine sections_fresh (fun _ => 300) .standard .standard none () 0 [] events ?_ ?_
    (c := then_) ?_ 3601 asker "x" (some "/a.py") {}
  · simp only [events, List.forall_mem_cons]
    exact ⟨fun w => (Surroundings.calm_quiet _ w).genuine, (Conditions.calm_tree _).genuine, trivial,
      fun w => (Surroundings.calm_quiet _ w).genuine, nofun⟩
  · simp only [events, List.forall_mem_cons]
    exact ⟨trivial, asker, trivial, trivial, nofun⟩
  · exact ⟨rfl, rfl, rfl, fun _ => rfl, fun _ => rfl⟩

end Engine

end CodeAtlas
