import CodeAtlas.Engine.Retrieval
import CodeAtlas.Proofs.Context.Memory
import CodeAtlas.Proofs.Engine.Run

/-!
# Histories of an engine

An engine is called to index workspaces and to retrieve contexts, in any order, each time in
surroundings of its own; between the calls time passes.

An engine is reached if it starts on an index and comes by such calls. Any section of a retrieval
may have been cut off, so nothing is known of what it has kept or of where it has left the embedder;
that the files of the index have paths is known all the same.

## Main results

`Engine.retrieve_engine` says what a retrieval does to an engine: it works the embedder and changes
what is kept, and leaves the index alone.
`Engine.Reached.located` says what is known of an engine that is reached.
-/

namespace CodeAtlas

/-- What an engine is called for. Every call says the time that it is; the clock of the index is
moved by `wait`. -/
inductive EngineEvent (τ : Type) where
  | index {ω : Type} (s : Surroundings ω) (around : ω) (now : τ) (owner : String)
    (root : FilePath) (force : Bool)
  | retrieve (c : Conditions) (now : τ) (owner query : String) (path : Option String)
    (options : ContextOptions)
  | wait (micros : Int)

/-- Whatever goes wrong during the call, nothing is put in the place of what the engine does. -/
def EngineEvent.Genuine {τ : Type} : EngineEvent τ → Prop
  | .index s _ _ _ _ _ => ∀ w, (s.conditions w).Genuine
  | .retrieve c _ _ _ _ _ => c.Genuine
  | .wait _ => True

/-- The owners of contexts are plain. -/
def EngineEvent.Plain {τ : Type} : EngineEvent τ → Prop
  | .retrieve _ _ owner _ _ _ => CodeAtlas.Plain owner
  | _ => True

/-- Every file is stored under a path and shown under one. -/
def Index.Placed (ix : Index) : Prop :=
  ∀ r ∈ ix.tables.files, r.path ≠ "" ∧ r.relativePath ≠ ""

namespace Engine

variable {τ σ ω : Type}

section Time

set_option linter.unusedSectionVars false

variable [Add τ] [Sub τ] [LE τ] [DecidableLE τ] [LT τ] [DecidableLT τ] [OfNat τ 0]

/-- The engine after a call. -/
def apply (e : Engine τ σ) : EngineEvent τ → Engine τ σ
  | .index s around now owner root force => (e.indexWorkspace s now owner root force around).2.engine
  | .retrieve c now owner query path options => (e.retrieve c now owner query path options).2
  | .wait micros => { e with index := { e.index with clock := e.index.clock + micros } }

/-- The engine after some calls, first one first. -/
def after (e : Engine τ σ) (events : List (EngineEvent τ)) : Engine τ σ :=
  events.foldl apply e

/-- What holds at first and after every call holds after all of them. -/
theorem after_induction {P : Engine τ σ → Prop} {Q : EngineEvent τ → Prop}
    (step : ∀ e event, Q event → P e → P (e.apply event)) {e : Engine τ σ} (first : P e)
    {events : List (EngineEvent τ)} (all : ∀ event ∈ events, Q event) : P (e.after events) := by
  induction events generalizing e with
  | nil => exact first
  | cons event rest ih =>
    exact ih (step e event (all event List.mem_cons_self) first)
      fun event' member => all event' (List.mem_cons_of_mem _ member)

/-- Looking for similar code works the embedder and nothing else. -/
theorem similarCode_engine (c : Conditions) (now : τ) (owner query : String)
    (path : Option String) (options : ContextOptions) (e : Engine τ σ) :
    ∃ embedder, e.embedder.Work embedder ∧
      (e.similarCode c now owner query path options).2 = { e with embedder } := by
  simp only [similarCode]
  split
  · exact ⟨e.embedder, .refl _, rfl⟩
  · exact ⟨_, Embedder.work_patiently _ (fun e => Embedder.work_embed e _ _) e.embedder, rfl⟩

/-- What is kept once the sections of a context were asked for. -/
def memoryAfter (c : Conditions) (now : τ) (owner : String) (file : String) (e : Engine τ σ) :
    ContextMemory τ :=
  let r := e.config.retrieval
  let from_ := source c e.index
  let memory := (e.memory.currentFile from_ now r.contentPreviewChars owner file).2
  let memory := (memory.dependencies from_ now r.keyFunctionsPerDependency owner file).2
  let memory := (memory.relatedFiles from_ now r.maxRelatedFiles owner file).2
  (memory.project from_ now owner).2

theorem sections_engine (c : Conditions) (now : τ) (owner query : String) (path : Option String)
    (options : ContextOptions) (cut : ContextSection → Option Failure) (e : Engine τ σ) :
    ∃ embedder, e.embedder.Work embedder ∧
      (e.sections c now owner query path options cut).2 =
        { e with memory := e.memoryAfter c now owner (path.getD ""), embedder } := by
  obtain ⟨embedder, work, same⟩ := similarCode_engine c now owner query path options
    { e with memory := e.memoryAfter c now owner (path.getD "") }
  exact ⟨embedder, work, same⟩

/-- A retrieval works the embedder, and keeps what the sections kept. -/
theorem retrieve_engine (c : Conditions) (now : τ) (owner query : String) (path : Option String)
    (options : ContextOptions) (cut : ContextSection → Option Failure) (e : Engine τ σ) :
    ∃ embedder memory, e.embedder.Work embedder ∧
      (memory = e.memory ∨ memory = e.memoryAfter c now owner (path.getD "")) ∧
      (e.retrieve c now owner query path options cut).2 = { e with memory, embedder } := by
  -- A retrieval that is out of order asks for nothing.
  simp only [retrieve]
  split
  · exact ⟨e.embedder, e.memory, .refl _, .inl rfl, rfl⟩
  · obtain ⟨embedder, work, same⟩ := sections_engine c now owner query path options cut e
    exact ⟨embedder, _, work, .inr rfl, same⟩

theorem retrieve_index (c : Conditions) (now : τ) (owner query : String) (path : Option String)
    (options : ContextOptions) (e : Engine τ σ) :
    (e.retrieve c now owner query path options).2.index = e.index := by
  obtain ⟨_, _, _, _, same⟩ := retrieve_engine c now owner query path options _ e
  rw [same]

/-- A retrieval that is not out of order keeps what the sections kept. -/
theorem retrieve_keeps {c : Conditions} (working : c.outage .retrieve = none) (now : τ)
    (owner query : String) (path : Option String) (options : ContextOptions) (e : Engine τ σ) :
    ∃ embedder, (e.retrieve c now owner query path options).2 =
      { e with memory := e.memoryAfter c now owner (path.getD ""), embedder } := by
  obtain ⟨embedder, _, same⟩ := sections_engine c now owner query path options (fun _ => none) e
  refine ⟨embedder, ?_⟩
  simp only [retrieve, working]
  exact same

end Time

/-! ### The engines that calls lead to -/

/-- An engine with this configuration and files that have paths, in whose index nothing is under way.
-/
structure Located (config : EngineConfig) (e : Engine τ σ) : Prop where
  config : e.config = config
  settled : e.index.Settled
  placed : e.index.Placed

variable {config : EngineConfig} {e : Engine τ σ}

theorem Located.fewerFiles (located : e.Located config) {embedder : Embedder τ σ}
    {memory : ContextMemory τ} {index : Index} (settled : index.Settled)
    (files : ∀ r ∈ index.tables.files, r ∈ e.index.tables.files) :
    ({ e with embedder, memory, index } : Engine τ σ).Located config where
  config := located.config
  settled := settled
  placed r member := located.placed r (files r member)

theorem Located.forget (located : e.Located config) (c : Conditions) (owner : String) :
    (e.forget c owner).2.Located config := by
  obtain ⟨memory, same⟩ := forget_engine c owner e
  rw [same]
  exact located.fewerFiles located.settled fun _ member => member

section Runs

variable {s : Surroundings ω} {goal : RunGoal}

theorem located_tellAll {run : IndexRun τ σ ω} (located : run.engine.Located config) (owner : String)
    (paths : List String) : (paths.foldl (IndexRun.tell s owner) run).engine.Located config := by
  induction paths generalizing run with
  | nil => exact located
  | cons path rest ih => exact ih (located.forget (s.conditions run.around) owner)

/-- The file that is written has the path of one that was walked. -/
theorem located_dealt {path : FilePath} (named : path.Named) (inner : path.parts ≠ [])
    {run run' : IndexRun τ σ ω} (dealt : IndexRun.Dealt s goal path run run')
    (located : run.engine.Located config) : run'.engine.Located config := by
  cases dealt with
  | cancelled off after =>
    rw [after]
    exact located
  | failed embedder index f work settled tables engine =>
    rw [engine]
    exact located.fewerFiles settled fun r member => tables ▸ member
  | skipped embedder index read work settled tables engine =>
    rw [engine]
    exact located.fewerFiles settled fun r member => tables ▸ member
  | written embedder index read outline d embeddings work settled tables engine report changed around
      given outlined draft =>
    rw [engine]
    refine Located.forget (e := { run.engine with embedder, index })
      ⟨located.config, settled, fun r member => ?_⟩ _ _
    have accepts : run.engine.index.tables.Accepts
      (run.engine.index.tables.rowFor d.file run.engine.index.now) := Tables.accepts_rowFor
    rw [tables, Tables.mem_put located.settled.sound accepts] at member
    rcases member with ⟨old, _⟩ | rfl
    · exact located.placed r old
    · rw [Tables.rowFor_paths.1, Tables.rowFor_paths.2, draft]
      exact ⟨named.text_ne, named.relative_ne inner⟩

theorem located_swept {files : List FilePath} {unreadable : List String} {run : IndexRun τ σ ω}
    {out : Option Failure × IndexRun τ σ ω}
    (swept : IndexRun.Swept s goal files unreadable run out)
    (located : run.engine.Located config) : out.2.engine.Located config := by
  cases swept with
  | failed index f settled tables =>
    exact located.fewerFiles settled fun r member => tables ▸ member
  | removed index live gone deleted settled tables =>
    have left : ({ run.engine with index } : Engine τ σ).Located config := by
      refine located.fewerFiles settled fun r member => ?_
      rw [tables, Tables.mem_drop] at member
      exact member.1
    exact located_tellAll left _ _

/-- The steps of runs through trees of names keep the paths of files. -/
theorem kept_located (named : ∀ w, (s.conditions w).tree.Named) :
    IndexRun.Kept s (Located config : Engine τ σ → Prop) where
  settled located := located.settled
  dealt := fun ⟨w, names⟩ inner dealt => located_dealt (names (named w)).2 inner dealt
  swept := located_swept
  saved settled tables located := located.fewerFiles settled fun r member => by
    rw [tables] at member
    exact member

end Runs

section Time

set_option linter.unusedSectionVars false

variable [Add τ] [Sub τ] [LE τ] [DecidableLE τ] [LT τ] [DecidableLT τ] [OfNat τ 0]

/-- What an engine with this configuration can become. -/
inductive Reached (config : EngineConfig) : Engine τ σ → Prop where
  | created (duration : Float → τ) (settings : Settings) (provider : Option (Provider σ))
      (state : σ) {index : Index} (settled : index.Settled) (placed : index.Placed) :
      Reached config (create duration config settings provider state index)
  | indexed {ω : Type} {e : Engine τ σ} (before : Reached config e) {s : Surroundings ω}
      (honest : ∀ w, (s.conditions w).Honest) (named : ∀ w, (s.conditions w).tree.Named) (now : τ)
      (owner : String) (root : FilePath) (force : Bool) (around : ω) :
      Reached config (e.indexWorkspace s now owner root force around).2.engine
  /-- What the sections that were cut off have kept is not known. -/
  | retrieved {e : Engine τ σ} (before : Reached config e) (c : Conditions) (now : τ)
      (owner query : String) (path : Option String) (options : ContextOptions)
      (cut : ContextSection → Option Failure) (embedder : Embedder τ σ) (memory : ContextMemory τ) :
      Reached config { (e.retrieve c now owner query path options cut).2 with embedder, memory }
  | waited {e : Engine τ σ} (before : Reached config e) (micros : Int) :
      Reached config { e with index := { e.index with clock := e.index.clock + micros } }

theorem Reached.located {e : Engine τ σ} (reached : Reached config e) : e.Located config := by
  induction reached with
  | created duration settings provider state settled placed => exact ⟨rfl, settled, placed⟩
  | indexed before honest named now owner root force around ih =>
    exact (kept_located named).indexWorkspace honest ih now owner root force around
  | retrieved before c now owner query path options cut embedder memory ih =>
    -- Whatever was cut off, a retrieval leaves the index alone.
    obtain ⟨_, _, _, _, same⟩ := retrieve_engine c now owner query path options cut _
    rw [same]
    exact ih.fewerFiles ih.settled fun _ member => member
  | waited before micros ih =>
    exact ih.fewerFiles (ih.settled.later _) fun _ member => member

end Time

end Engine

end CodeAtlas
