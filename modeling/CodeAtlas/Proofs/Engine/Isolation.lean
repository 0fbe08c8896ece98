import CodeAtlas.Proofs.Context.Memory
import CodeAtlas.Proofs.Engine.Coherence
import CodeAtlas.Proofs.Engine.Project

/-!
# Owners do not see each other

Two engines that started with the same rows of an owner, and in which the owner does the same, give
the owner the same sections of a context, whatever other owners do to either of them. What is kept of
files and links is kept under the owner and a path with a NUL character between them, so this takes
owners without one.

## Main results

`Engine.Beside` is such a pair of engines, `Engine.sections_isolated` says that the owner finds the
same in both. `Engine.sections_isolated_mixed`: an owner whose name ends like a path of another one,
after a NUL character, finds what was kept of the other.
-/

namespace CodeAtlas

/-- The call is one of some owners, or time passes. -/
def EngineEvent.By {τ : Type} (owners : List String) : EngineEvent τ → Prop
  | .index _ _ _ owner _ _ => owner ∈ owners
  | .retrieve _ _ owner _ _ _ => owner ∈ owners
  | .wait _ => True

namespace Engine

variable {τ σ : Type}

theorem source_agree {owner : String} {ix ix' : Index} (settled : ix.Settled)
    (settled' : ix'.Settled) (agree : Tables.AgreeFor owner ix.tables ix'.tables) (c : Conditions) :
    ContextSource.Agree owner (source c ix) (source c ix') where
  records path := by
    simp only [source, Index.recordsAt_agree settled.opened settled'.opened agree]
  symbolFiles symbol use limit := by
    simp only [source, Index.symbolFiles_agree settled.opened settled'.opened agree]
  statistics := by
    simp only [source, Index.statistics_agree settled.opened settled'.opened agree]
  linkOutage := rfl

/-- An engine under a configuration that some owners use, with room for the projects of all. -/
structure Orderly (duration : Float → τ) (config : EngineConfig) (owners : List String)
    (e : Engine τ σ) : Prop where
  coherent : e.Coherent
  configured : e.config = config
  roomy : Cache.Roomy (owners.map ContextMemory.ownerKey) e.memory.projects
  lifetime : e.memory.projects.lifetime = duration config.retrieval.projectContextTtlSeconds

variable {duration : Float → τ} {config : EngineConfig} {owner : String} {others owners : List String}
  {e e' : Engine τ σ}

theorem orderly_create (few : owners.length ≤ ContextMemory.projectCapacity) (settings : Settings)
    (provider : Option (Provider σ)) (state : σ) {index : Index} (settled : index.Settled) :
    (create duration config settings provider state index).Orderly duration config owners where
  coherent := coherent_create duration config settings provider state settled
  configured := rfl
  roomy := .empty (by rwa [List.length_map]) _
  lifetime := rfl

section Time

set_option linter.unusedSectionVars false

variable [Add τ] [Sub τ] [LE τ] [DecidableLE τ] [LT τ] [DecidableLT τ] [OfNat τ 0]

/-- A retrieval that is out of order leaves the projects, and any other asks for one. -/
theorem retrieve_projects (c : Conditions) (now : τ) (owner query : String) (path : Option String)
    (options : ContextOptions) (e : Engine τ σ) :
    (e.retrieve c now owner query path options).2.memory.projects =
      match c.outage .retrieve with
      | some _ => e.memory.projects
      | none => (e.memory.project (source c e.index) now owner).2.projects := by
  cases working : c.outage .retrieve with
  | some outage => simp only [retrieve, working]
  | none =>
    obtain ⟨embedder, same⟩ := retrieve_keeps working now owner query path options e
    rw [same]
    exact memoryAfter_projects c now owner _ e

/-- The calls of its owners keep an engine orderly. -/
theorem Orderly.apply (orderly : e.Orderly duration config owners)
    (plain : ∀ owner ∈ owners, Plain owner) {event : EngineEvent τ} (genuine : event.Genuine)
    (by_ : event.By owners) : (e.apply event).Orderly duration config owners := by
  have plain_ : event.Plain := by
    cases event with
    | index s around now owner root force => trivial
    | retrieve c now owner query path options => exact plain owner by_
    | wait micros => trivial
  have coherent := coherent_apply genuine plain_ orderly.coherent
  cases event with
  | index s around now owner root force =>
    have footprint := IndexRun.footprint_indexWorkspace (fun w => (genuine w).honest)
      orderly.coherent.settled now owner root force around
    have projects : (e.apply (.index s around now owner root force)).memory.projects = _ :=
      footprint.projects
    refine ⟨coherent, footprint.config.trans orderly.configured, ?_, ?_⟩
    · rw [projects]
      split
      · exact orderly.roomy
      · exact orderly.roomy.erase _
    · rw [projects]
      split <;> exact orderly.lifetime
  | retrieve c now owner query path options =>
    have known : ContextMemory.ownerKey owner ∈ owners.map ContextMemory.ownerKey :=
      List.mem_map_of_mem by_
    have projects : (e.apply (.retrieve c now owner query path options)).memory.projects = _ :=
      retrieve_projects c now owner query path options e
    refine ⟨coherent, ?_, ?_, ?_⟩
    · obtain ⟨_, _, _, _, same⟩ := retrieve_engine c now owner query path options _ e
      exact (congrArg (·.config) same).trans orderly.configured
    · rw [projects]
      split
      · exact orderly.roomy
      · exact ContextMemory.roomy_project orderly.roomy known _ now
    · rw [projects]
      split
      · exact orderly.lifetime
      · exact (ContextMemory.project_lifetime _ now owner e.memory).trans orderly.lifetime
  | wait micros => exact ⟨coherent, orderly.configured, orderly.roomy, orderly.lifetime⟩

theorem agree_apply (settled : e.index.Settled) (apart : owner ∉ others) {event : EngineEvent τ}
    (genuine : event.Genuine) (by_ : event.By others) :
    Tables.AgreeFor owner e.index.tables (e.apply event).index.tables := by
  cases event with
  | index s around now other root force =>
    have footprint := IndexRun.footprint_indexWorkspace (fun w => (genuine w).honest) settled now
      other root force around
    exact footprint.others owner fun same => apart (same ▸ by_)
  | retrieve c now asker query path options =>
    have index_ : (e.apply (.retrieve c now asker query path options)).index = e.index :=
      retrieve_index c now asker query path options e
    exact index_ ▸ .refl owner _
  | wait micros => exact .refl owner _

/-- A call of others leaves what is kept of the project of an owner. -/
theorem Orderly.entry?_apply (orderly : e.Orderly duration config owners) (apart : owner ∉ others)
    (among : ∀ other ∈ others, other ∈ owners) {event : EngineEvent τ} (genuine : event.Genuine)
    (by_ : event.By others) :
    Cache.entry? (e.apply event).memory.projects (ContextMemory.ownerKey owner) =
      e.memory.projects.entry? (ContextMemory.ownerKey owner) := by
  have other_ {other : String} (member : other ∈ others) :
      ContextMemory.ownerKey owner ≠ ContextMemory.ownerKey other := fun same =>
    apart (ContextMemory.ownerKey_injective same ▸ member)
  cases event with
  | index s around now other root force =>
    have footprint := IndexRun.footprint_indexWorkspace (fun w => (genuine w).honest)
      orderly.coherent.settled now other root force around
    have projects : (e.apply (.index s around now other root force)).memory.projects = _ :=
      footprint.projects
    rw [projects]
    split
    · rfl
    · rw [Cache.entry?_erase, if_neg (other_ by_)]
  | retrieve c now asker query path options =>
    have known : ContextMemory.ownerKey asker ∈ owners.map ContextMemory.ownerKey :=
      List.mem_map_of_mem (among asker by_)
    have projects : (e.apply (.retrieve c now asker query path options)).memory.projects = _ :=
      retrieve_projects c now asker query path options e
    rw [projects]
    split
    · rfl
    · rw [ContextMemory.entry?_project orderly.roomy known, if_neg (other_ by_)]
  | wait micros => rfl

/-- Two engines under one configuration with the same rows of an owner at first. The owner calls
both in the same way; a run for the owner has left the same rows in both and has let changes be known
in both or in neither. Between these calls the others call the one and the other, each in a way of its own. -/
inductive Beside (duration : Float → τ) (config : EngineConfig) (owner : String)
    (others : List String) : Engine τ σ → Engine τ σ → Prop where
  | created (settings : Settings) (provider : Option (Provider σ)) (state : σ) {ix ix' : Index}
      (settled : ix.Settled) (settled' : ix'.Settled)
      (agree : Tables.AgreeFor owner ix.tables ix'.tables) :
      Beside duration config owner others (create duration config settings provider state ix)
        (create duration config settings provider state ix')
  | left {e e' : Engine τ σ} (before : Beside duration config owner others e e')
      {event : EngineEvent τ} (genuine : event.Genuine) (by_ : event.By others) :
      Beside duration config owner others (e.apply event) e'
  | right {e e' : Engine τ σ} (before : Beside duration config owner others e e')
      {event : EngineEvent τ} (genuine : event.Genuine) (by_ : event.By others) :
      Beside duration config owner others e (e'.apply event)
  | retrieved {e e' : Engine τ σ} (before : Beside duration config owner others e e')
      {c : Conditions} (genuine : c.Genuine) (now : τ) (query : String) (path : Option String)
      (options : ContextOptions) :
      Beside duration config owner others (e.retrieve c now owner query path options).2
        (e'.retrieve c now owner query path options).2
  | indexed {e e' : Engine τ σ} (before : Beside duration config owner others e e') {ω : Type}
      {s : Surroundings ω} (genuine : ∀ w, (s.conditions w).Genuine) (now : τ) (root : FilePath)
      (force : Bool) (around : ω)
      (agree : Tables.AgreeFor owner
        (e.indexWorkspace s now owner root force around).2.engine.index.tables
        (e'.indexWorkspace s now owner root force around).2.engine.index.tables)
      (told : (e'.indexWorkspace s now owner root force around).2.changed = [] ↔
        (e.indexWorkspace s now owner root force around).2.changed = []) :
      Beside duration config owner others (e.indexWorkspace s now owner root force around).2.engine
        (e'.indexWorkspace s now owner root force around).2.engine

/-- Two engines of which an owner has the same. -/
structure Together (duration : Float → τ) (config : EngineConfig) (owner : String)
    (others : List String) (e e' : Engine τ σ) : Prop where
  left : e.Orderly duration config (owner :: others)
  right : e'.Orderly duration config (owner :: others)
  agree : Tables.AgreeFor owner e.index.tables e'.index.tables
  project : e'.memory.projects.entry? (ContextMemory.ownerKey owner) =
    e.memory.projects.entry? (ContextMemory.ownerKey owner)

theorem Beside.together (apart : owner ∉ others) (plain : ∀ user ∈ owner :: others, Plain user)
    (few : (owner :: others).length ≤ ContextMemory.projectCapacity)
    (beside : Beside duration config owner others e e') : Together duration config owner others e e' := by
  have among : ∀ other ∈ others, other ∈ owner :: others := fun _ => List.mem_cons_of_mem _
  have wider {event : EngineEvent τ} (by_ : event.By others) : event.By (owner :: others) := by
    cases event with
    | index s around now other root force => exact among other by_
    | retrieve c now asker query path options => exact among asker by_
    | wait micros => trivial
  induction beside with
  | created settings provider state settled settled' agree =>
    exact ⟨orderly_create few settings provider state settled,
      orderly_create few settings provider state settled', agree, rfl⟩
  | left before genuine by_ ih =>
    have same := agree_apply ih.left.coherent.settled apart genuine by_
    have entry := ih.left.entry?_apply apart among genuine by_
    exact ⟨ih.left.apply plain genuine (wider by_), ih.right, same.symm.trans ih.agree,
      ih.project.trans entry.symm⟩
  | right before genuine by_ ih =>
    have same := agree_apply ih.right.coherent.settled apart genuine by_
    have entry := ih.right.entry?_apply apart among genuine by_
    exact ⟨ih.left, ih.right.apply plain genuine (wider by_), ih.agree.trans same,
      entry.trans ih.project⟩
  | @retrieved e e' before c genuine now query path options ih =>
    have known : ContextMemory.ownerKey owner ∈ (owner :: others).map ContextMemory.ownerKey :=
      List.mem_map_of_mem List.mem_cons_self
    have asked := source_agree ih.left.coherent.settled ih.right.coherent.settled ih.agree c
    let event : EngineEvent τ := .retrieve c now owner query path options
    have genuine_ : event.Genuine := genuine
    have orderly {e : Engine τ σ} (orderly : e.Orderly duration config (owner :: others)) :
        (e.retrieve c now owner query path options).2.Orderly duration config (owner :: others) :=
      orderly.apply plain genuine_ List.mem_cons_self
    refine ⟨orderly ih.left, orderly ih.right, ?_, ?_⟩
    · rw [retrieve_index, retrieve_index]
      exact ih.agree
    · rw [retrieve_projects, retrieve_projects]
      split
      · exact ih.project
      -- The same entry is read on both sides, or the same answer is kept for as long.
      · rw [ContextMemory.entry?_project ih.left.roomy known,
          ContextMemory.entry?_project ih.right.roomy known, asked.statistics, ih.project,
          ih.left.lifetime, ih.right.lifetime]
  | @indexed e e' before ω s genuine now root force around agree told ih =>
    let event : EngineEvent τ := .index s around now owner root force
    have genuine_ : event.Genuine := genuine
    have orderly {e : Engine τ σ} (orderly : e.Orderly duration config (owner :: others)) :
        (e.indexWorkspace s now owner root force around).2.engine.Orderly duration config
          (owner :: others) :=
      orderly.apply plain genuine_ List.mem_cons_self
    have run := IndexRun.footprint_indexWorkspace (fun w => (genuine w).honest)
      ih.left.coherent.settled now owner root force around
    have run' := IndexRun.footprint_indexWorkspace (fun w => (genuine w).honest)
      ih.right.coherent.settled now owner root force around
    refine ⟨orderly ih.left, orderly ih.right, agree, ?_⟩
    rw [run.projects, run'.projects]
    simp only [told]
    split
    · exact ih.project
    -- Both engines have forgotten the owner.
    · rw [Cache.entry?_erase, Cache.entry?_erase, if_pos rfl, if_pos rfl]

/-- What others do to one of two engines makes no difference to the sections of a context that an
owner gets. -/
theorem sections_isolated (apart : owner ∉ others) (plain : ∀ user ∈ owner :: others, Plain user)
    (few : (owner :: others).length ≤ ContextMemory.projectCapacity)
    (beside : Beside duration config owner others e e') {c : Conditions} (answering : c.Answering)
    (now : τ) (query : String) (path : Option String) (options : ContextOptions) :
    let found := (e.sections c now owner query path options).1
    let found' := (e'.sections c now owner query path options).1
    found'.currentFile = found.currentFile ∧ found'.relatedFiles = found.relatedFiles ∧
      found'.dependencies = found.dependencies ∧ found'.project = found.project := by
  intro found found'
  obtain ⟨left, right, same, kept⟩ := beside.together apart plain few
  have asker : Plain owner := plain owner List.mem_cons_self
  have settled := left.coherent.settled
  have settled' := right.coherent.settled
  have agree := source_agree settled settled' same c
  -- What is kept on either side is what the index of that side answers.
  have config' := right.configured.trans left.configured.symm
  have coherent : ContextMemory.Coherent (source c e.index).links
      e.config.retrieval.contentPreviewChars e.config.retrieval.maxCandidatesPerSymbol e.memory :=
    source_answering answering e.index ▸ left.coherent.kept
  have coherent' : ContextMemory.Coherent (source c e'.index).links
      e.config.retrieval.contentPreviewChars e.config.retrieval.maxCandidatesPerSymbol e'.memory :=
    config' ▸ source_answering answering e'.index ▸ right.coherent.kept
  have follows : (source c e.index).links.Follows owner (source c e.index).links := .refl _
  have follows' : (source c e'.index).links.Follows owner (source c e'.index).links := .refl _
  have file := coherent.currentFile follows asker now (path.getD "")
  have file' := coherent'.currentFile follows' asker now (path.getD "")
  have links := file.dependencies follows asker now e.config.retrieval.keyFunctionsPerDependency
    (path.getD "")
  have links' := file'.dependencies follows' asker now
    e.config.retrieval.keyFunctionsPerDependency (path.getD "")
  refine ⟨?_, ?_, ?_, ?_⟩
  · have results := ContextMemory.currentFile_agree agree coherent coherent' asker now (path.getD "")
    simp only [found, found', sections, attempts, config']
    exact Attempt.found_congr results none
  · have results := ContextMemory.relatedFiles_agree agree links links' asker now
      e.config.retrieval.maxRelatedFiles (path.getD "")
    simp only [found, found', sections, attempts, config']
    exact Attempt.found_congr results []
  · have results := ContextMemory.dependencies_agree agree file file' asker now
      e.config.retrieval.keyFunctionsPerDependency (path.getD "")
    simp only [found, found', sections, attempts, config']
    exact Attempt.found_congr results []
  · simp only [found, found', sections_project, Cache.get_value, kept, agree.statistics]

/-- Another owner indexes a workspace of the same name and asks for a context in one of the engines. -/
theorem sections_isolated_beside :
    let tree : Tree := ⟨.dir [("a.py", .file [120] (.ofMicros 0))]⟩
    let c : Conditions := { tree }
    let run := (create (fun _ => 300) .standard .standard (none : Option (Provider Unit)) ()
      (Index.replay 0 []).2).indexWorkspace (.quiet tree) (0 : Int) "bob" ⟨"/", []⟩ false ()
    let e := (run.2.engine.retrieve c 2 "bob" "x" (some "/a.py") {}).2
    let e' := ((run.2.engine.apply (.index (.quiet tree) () 1 "eve" ⟨"/", []⟩ true)).retrieve c 2 "bob"
      "x" (some "/a.py") {}).2.apply (.retrieve c 3 "eve" "x" (some "/a.py") {})
    let found := (e.sections c 4 "bob" "x" (some "/a.py") {}).1
    let found' := (e'.sections c 4 "bob" "x" (some "/a.py") {}).1
    found'.currentFile = found.currentFile ∧ found'.relatedFiles = found.relatedFiles ∧
      found'.dependencies = found.dependencies ∧ found'.project = found.project := by
  intro tree c run e e'
  have calm : c.Genuine := (Conditions.calm_tree tree).genuine
  have quiet (w : Unit) : ((Surroundings.quiet tree).conditions w).Genuine :=
    (Surroundings.calm_quiet tree w).genuine
  have settled : (Index.replay 0 []).2.Settled := Index.replay_settled 0 []
  have among : "eve" ∈ ["eve"] := List.mem_cons_self
  have first : Beside (fun _ => 300) .standard "bob" ["eve"] run.2.engine run.2.engine :=
    .indexed (.created .standard none () settled settled (.refl _ _)) quiet 0 _ false () (.refl _ _)
      Iff.rfl
  have second : Beside (fun _ => 300) .standard "bob" ["eve"] run.2.engine
      (run.2.engine.apply (.index (.quiet tree) () 1 "eve" ⟨"/", []⟩ true)) :=
    .right first quiet among
  have third : Beside (fun _ => 300) .standard "bob" ["eve"] e e' :=
    .right (.retrieved second calm 2 "x" (some "/a.py") {}) calm among
  exact sections_isolated (by decide) (by decide) (by decide) third
    ⟨rfl, rfl, rfl, fun _ => rfl, fun _ => rfl⟩ 4 "x" (some "/a.py") {}

end Time

end Engine

/-! ### Owners that share keys -/

namespace ContextMemory

variable {τ : Type} [Add τ] [LE τ] [DecidableLE τ] {source : ContextSource} {now : τ} {owner : String}

/-- An owner whose name goes on after a NUL character shares keys with the owner that it starts
with. -/
theorem fileKey_mixed (owner rest path : String) :
    fileKey (owner ++ "\x00" ++ rest) path = fileKey owner (rest ++ "\x00" ++ path) := by
  simp only [fileKey, ownerKey, String.append_assoc]

theorem linked_files (path : String) (m : ContextMemory τ) :
    (m.linked source now owner path).2.files = m.files := by
  simp only [linked]
  split <;> rfl

theorem relatedFiles_files (count : Nat) (path : String) (m : ContextMemory τ) :
    (m.relatedFiles source now count owner path).2.files = m.files := by
  simp only [relatedFiles]
  split
  · rfl
  · exact linked_files path m

theorem dependencies_files (functionCount : Nat) (path : String) (m : ContextMemory τ) :
    (m.dependencies source now functionCount owner path).2.files = m.files := by
  simp only [dependencies]
  split
  · rfl
  · split
    · rfl
    · rfl
    · exact linked_files path m

theorem project_files (m : ContextMemory τ) :
    (m.project source now owner).2.files = m.files := by
  simp only [project]
  split
  · rfl
  · split <;> rfl

end ContextMemory

namespace Engine

variable {τ σ : Type} [Add τ] [Sub τ] [LE τ] [DecidableLE τ] [LT τ] [DecidableLT τ] [OfNat τ 0]

/-- What was kept for an owner whose name goes on after a NUL character is found by the owner that it
starts with. -/
theorem sections_mixed {c : Conditions} (working : c.outage .retrieve = none) {owner rest path : String}
    (named : path.isEmpty = false) {e : Engine τ σ} {record : IndexedFile} {records : List IndexedFile}
    (answer : (source c e.index).links.recordsAt (owner ++ "\x00" ++ rest) path =
      .ok (record :: records)) (holds : 0 < e.memory.files.capacity)
    (absent : e.memory.files.entry? (ContextMemory.fileKey (owner ++ "\x00" ++ rest) path) = none)
    {now later : τ} (lives : ¬ now + e.memory.files.lifetime ≤ later) (c' : Conditions)
    (query : String) (options : ContextOptions) :
    let e' := (e.retrieve c now (owner ++ "\x00" ++ rest) query (some path) options).2
    (e'.sections c' later owner query (some (rest ++ "\x00" ++ path)) options).1.currentFile =
      some (.ofRecord e.config.retrieval.contentPreviewChars record) := by
  intro e'
  obtain ⟨embedder, same⟩ := retrieve_keeps working now (owner ++ "\x00" ++ rest) query (some path)
    options e
  have files : e'.memory.files = e.memory.files.set now
      (ContextMemory.fileKey owner (rest ++ "\x00" ++ path))
      (.ofRecord e.config.retrieval.contentPreviewChars record) := by
    rw [show e' = _ from same, ← ContextMemory.fileKey_mixed]
    simp only [memoryAfter, ContextMemory.project_files, ContextMemory.relatedFiles_files,
      ContextMemory.dependencies_files, ContextMemory.currentFile, Option.getD_some, named,
      Bool.false_eq_true, if_false, Cache.get_absent absent, answer]
  have path_ : (rest ++ "\x00" ++ path).isEmpty = false := by
    simp
  have found := Cache.get_set holds lives (ContextMemory.fileKey owner (rest ++ "\x00" ++ path))
    (CurrentFile.ofRecord e.config.retrieval.contentPreviewChars record)
  rw [← files] at found
  simp only [sections, attempts, SectionAttempts.bundle, Attempt.cutOff, ContextMemory.currentFile,
    Option.getD_some, path_, Bool.false_eq_true, if_false, found]
  rfl

/-- An owner without rows gets the file of another one, once that has asked for it. -/
theorem sections_isolated_mixed :
    let f : IndexedFile := {
      owner := "bob\x00team", workspace := "/", path := "/a.py", relativePath := "a.py"
      name := "a.py", extension := "py", language := .python, content := "x", contentHash := ""
      indexedAt := Timestamp.ofMicros 0 }
    let c : Conditions := { tree := ⟨.dir []⟩ }
    let e : Engine Int Unit := create (fun _ => 300) .standard .standard none ()
      (Index.replay 0 [⟨.file f [] false, Faults.none, Faults.none_undoable, 0⟩]).2
    let e' := e.after [.retrieve c 0 "bob\x00team" "x" (some "/a.py") {}]
    let found := (e.sections c 1 "bob" "x" (some "team\x00/a.py") {}).1.currentFile
    let found' := (e'.sections c 1 "bob" "x" (some "team\x00/a.py") {}).1.currentFile
    e.index.tables.filesOf "bob" = [] ∧ found.map (·.path) = none ∧
      found'.map (·.path) = some "/a.py" := by
  intro f c e e' found found'
  have settled : e.index.Settled := Index.replay_settled 0 _
  have answering : c.Answering := ⟨rfl, rfl, rfl, fun _ => rfl, fun _ => rfl⟩
  have links := source_answering answering e.index
  let row : FileRow := .ofRecord 1 f 1 (.ofMicros 0)
  have rows : e.index.tables.files = [row] := rfl
  have own : (e.index.tables.filesOf "bob\x00team").filter (·.isNamed "/a.py") = [row] := by
    rw [Tables.filesOf, rows]
    rfl
  have others : e.index.tables.filesOf "bob" = [] := by
    rw [Tables.filesOf, rows]
    rfl
  have answer : (source c e.index).links.recordsAt "bob\x00team" "/a.py" = .ok [row.record] := by
    rw [links]
    exact Index.recordsAt_only settled.opened own
  have nothing : (source c e.index).links.recordsAt "bob" "team\x00/a.py" = .ok [] := by
    rw [links]
    simp [Index.linkSource, Index.recordsAt_calm settled.opened, Tables.namedFiles, others,
      Tables.newestFirst]
  refine ⟨others, ?_, ?_⟩
  · have absent : found = none := by
      simp only [found, sections, attempts, SectionAttempts.bundle, Attempt.cutOff,
        ContextMemory.currentFile, Option.getD_some, nothing]
      rfl
    rw [absent]
    rfl
  · have name : "bob" ++ "\x00" ++ "team" = "bob\x00team" := rfl
    have text : "team" ++ "\x00" ++ "/a.py" = "team\x00/a.py" := rfl
    have lives : ¬ (0 : Int) + e.memory.files.lifetime ≤ 1 := by decide
    have answer' : (source c e.index).links.recordsAt ("bob" ++ "\x00" ++ "team") "/a.py" =
        .ok [row.record] := by rw [name, answer]
    have working : c.outage .retrieve = none := rfl
    have holds : 0 < e.memory.files.capacity := by decide
    have mixed := sections_mixed working rfl answer' holds rfl lives c "x" {}
    rw [name, text] at mixed
    have after_ : e' = (e.retrieve c 0 "bob\x00team" "x" (some "/a.py") {}).2 := rfl
    have shown : found' = some (.ofRecord e.config.retrieval.contentPreviewChars row.record) := by
      simp only [found', after_]
      exact mixed
    rw [shown]
    rfl

end Engine

end CodeAtlas
