import CodeAtlas.Proofs.Cache
import CodeAtlas.Proofs.Engine.Run
import CodeAtlas.Proofs.Index.Owner

/-!
# What a run touches

A run writes and removes files of its owner alone, and saves a structure of the owner. Of the
projects that are kept it forgets that of the owner, and only when it lets some change be known; as
long as it has not, the files of the index are as they were.

## Main results

`Engine.Footprint` says this of an engine and what it has become, `IndexRun.footprint_indexWorkspace`
that it holds of every run, wherever it stops.
-/

namespace CodeAtlas

namespace Engine

variable {τ σ : Type}

/-- The project of an owner is forgotten together with the rest, also when the links stay. -/
theorem forget_projects (c : Conditions) (owner : String) (e : Engine τ σ) :
    (e.forget c owner).2.memory.projects =
      e.memory.projects.erase (ContextMemory.ownerKey owner) := by
  simp only [forget]
  split <;> rfl

/-- What an engine has become for one owner alone; `changed` are the files of which this was let be
known. -/
structure Footprint (owner : String) (changed : List String) (e e' : Engine τ σ) : Prop where
  config : e'.config = e.config
  settled : e'.index.Settled
  others : ∀ other, other ≠ owner → Tables.AgreeFor other e.index.tables e'.index.tables
  files : changed = [] → e'.index.tables.files = e.index.tables.files
  projects : e'.memory.projects = if changed = [] then e.memory.projects
    else e.memory.projects.erase (ContextMemory.ownerKey owner)

variable {owner : String} {changed : List String} {e e₁ e₂ : Engine τ σ}

theorem Footprint.refl (settled : e.index.Settled) (owner : String) : Footprint owner [] e e where
  config := rfl
  settled := settled
  others _ _ := .refl _ _
  files _ := rfl
  projects := rfl

/-- The files and what is kept stay, whatever becomes of the rest for the owner. -/
theorem Footprint.keepFiles (footprint : Footprint owner changed e e₁) (embedder : Embedder τ σ)
    {index : Index} (settled : index.Settled)
    (files : index.tables.files = e₁.index.tables.files)
    (others : ∀ other, other ≠ owner → Tables.AgreeFor other e₁.index.tables index.tables) :
    Footprint owner changed e { e₁ with embedder, index } where
  config := footprint.config
  settled := settled
  others other apart := (footprint.others other apart).trans (others other apart)
  files untold := files.trans (footprint.files untold)
  projects := footprint.projects

theorem Footprint.keepTables (footprint : Footprint owner changed e e₁) (embedder : Embedder τ σ)
    {index : Index} (settled : index.Settled) (tables : index.tables = e₁.index.tables) :
    Footprint owner changed e { e₁ with embedder, index } :=
  footprint.keepFiles embedder settled (by rw [tables]) fun other _ => tables ▸ .refl other _

/-- A change that is let be known makes the engine forget the owner. -/
theorem Footprint.forget (footprint : Footprint owner changed e e₁) (embedder : Embedder τ σ)
    {index : Index} (settled : index.Settled)
    (others : ∀ other, other ≠ owner → Tables.AgreeFor other e₁.index.tables index.tables)
    (c : Conditions) (path : String) :
    Footprint owner (changed ++ [path]) e
      (({ e₁ with embedder, index } : Engine τ σ).forget c owner).2 := by
  have told : changed ++ [path] ≠ [] := by simp
  obtain ⟨memory, forgot⟩ := forget_engine c owner { e₁ with embedder, index }
  refine ⟨?_, ?_, fun other apart => ?_, fun untold => absurd untold told, ?_⟩
  · rw [forgot]
    exact footprint.config
  · rw [forgot]
    exact settled
  · rw [forgot]
    exact (footprint.others other apart).trans (others other apart)
  · -- Nothing of the owner was left when something had been told before.
    rw [forget_projects, if_neg told, footprint.projects]
    split
    · rfl
    · exact Cache.erase_erase _ _

end Engine

namespace IndexRun

variable {τ σ ω : Type} {s : Surroundings ω} {goal : RunGoal} {e : Engine τ σ}
  {run : IndexRun τ σ ω}

theorem footprint_tellAll {owner : String} (footprint : e.Footprint owner run.changed run.engine)
    (paths : List String) :
    e.Footprint owner (paths.foldl (tell s owner) run).changed
      (paths.foldl (tell s owner) run).engine := by
  induction paths generalizing run with
  | nil => exact footprint
  | cons path rest ih =>
    have told : e.Footprint owner (run.tell s owner path).changed (run.tell s owner path).engine :=
      footprint.forget run.engine.embedder footprint.settled (fun other _ => .refl other _) _ path
    exact ih told

theorem footprint_dealt {path : FilePath} {run' : IndexRun τ σ ω} (dealt : Dealt s goal path run run')
    (footprint : e.Footprint goal.owner run.changed run.engine) :
    e.Footprint goal.owner run'.changed run'.engine := by
  cases dealt with
  | cancelled off after =>
    rw [after]
    exact footprint
  | failed embedder index f work settled tables engine report changed =>
    rw [changed, engine]
    exact footprint.keepTables embedder settled tables
  | skipped embedder index read work settled tables engine report changed =>
    rw [changed, engine]
    exact footprint.keepTables embedder settled tables
  | written embedder index read outline d embeddings work settled tables engine report changed around
      given outlined draft =>
    rw [changed, engine]
    refine footprint.forget embedder settled (fun other apart => ?_) _ _
    -- The row that is put has the owner of the run, so no other owner sees it.
    have key : (run.engine.index.tables.rowFor d.file run.engine.index.now).owner = d.file.owner :=
      congrArg Prod.fst Tables.rowFor_key
    have own : d.file.owner = goal.owner := by rw [draft]; rfl
    rw [tables]
    refine .of_sameFor (Tables.sameFor_put footprint.settled.sound Tables.accepts_rowFor ?_) ?_
    · exact fun same => apart (same.symm.trans (key.trans own))
    · simp only [Tables.workspacesOf, Tables.put_workspaces]

theorem footprint_swept {files : List FilePath} {unreadable : List String}
    {out : Option Failure × IndexRun τ σ ω} (swept : Swept s goal files unreadable run out)
    (footprint : e.Footprint goal.owner run.changed run.engine) :
    e.Footprint goal.owner out.2.changed out.2.engine := by
  cases swept with
  | failed index f settled tables => exact footprint.keepTables run.engine.embedder settled tables
  | removed index live gone deleted settled tables walked kept told =>
    cases gone with
    | nil =>
      -- Nothing was told, so nothing was removed.
      refine footprint.keepTables run.engine.embedder settled ?_
      rw [tables, told rfl]
      exact Tables.drop_nil
    | cons first rest =>
      -- The first change that is told makes the engine forget the owner; the rest finds it forgotten.
      have others (other : String) (apart : other ≠ goal.owner) :
          Tables.AgreeFor other run.engine.index.tables index.tables := by
        rw [tables]
        refine .of_sameFor (Tables.sameFor_drop fun r member removed own => ?_) rfl
        rw [Index.mem_doomed footprint.settled.sound member] at removed
        exact apart (own.symm.trans removed.1)
      let swept : IndexRun τ σ ω := tell s goal.owner
        (({ run with engine := { run.engine with index } } : IndexRun τ σ ω).reported
          fun r => { r with deleted := deleted }) first
      have told : e.Footprint goal.owner swept.changed swept.engine :=
        footprint.forget run.engine.embedder settled others (s.conditions run.around) first
      exact footprint_tellAll told rest

theorem footprint_saveStructure (honest : (s.conditions run.around).Honest)
    (footprint : e.Footprint goal.owner run.changed run.engine) :
    e.Footprint goal.owner (run.saveStructure s goal).changed
      (run.saveStructure s goal).engine := by
  simp only [saveStructure]
  split
  · exact footprint
  next found _ =>
    rcases honest.guardOn_cases .saveStructure Outage.ignored
      (Index.saveStructure (s.conditions run.around).faults goal.owner goal.workspace.text found)
      run.engine.index with done | ⟨f, failed⟩
    · obtain ⟨settled, workspaces, tables, _⟩ := Index.saveStructure_cases honest.undoable
        footprint.settled goal.owner goal.workspace.text found
      rw [done]
      exact footprint.keepFiles run.engine.embedder settled (by rw [tables]) fun other apart =>
        Index.saveStructure_agree honest.undoable footprint.settled apart.symm _ _
    · rw [failed]
      exact footprint

theorem footprint_finish (honest : ∀ w, (s.conditions w).Honest) (files : List FilePath)
    (unreadable : List String) (footprint : e.Footprint goal.owner run.changed run.engine) :
    e.Footprint goal.owner (run.finish s goal files unreadable).2.changed
      (run.finish s goal files unreadable).2.engine := by
  have swept := footprint_swept
    (swept_sweep (honest run.around) footprint.settled goal files unreadable) footprint
  simp only [finish]
  split
  · exact footprint_saveStructure (honest _) footprint
  · split
    next ran =>
      rw [ran] at swept
      exact swept
    next ran =>
      rw [ran] at swept
      exact footprint_saveStructure (honest _) swept

section Time

set_option linter.unusedSectionVars false

variable [Add τ] [Sub τ] [LE τ] [DecidableLE τ] [LT τ] [DecidableLT τ] [OfNat τ 0]

theorem footprint_processAll (honest : ∀ w, (s.conditions w).Honest) (now : τ)
    (files : List FilePath) (footprint : e.Footprint goal.owner run.changed run.engine) :
    e.Footprint goal.owner (files.foldl (process s now goal) run).changed
      (files.foldl (process s now goal) run).engine := by
  induction files generalizing run with
  | nil => exact footprint
  | cons path rest ih =>
    exact ih (footprint_dealt (dealt_process (honest run.around) footprint.settled path) footprint)

/-- A run touches its owner alone, wherever it stops. -/
theorem footprint_indexWorkspace (honest : ∀ w, (s.conditions w).Honest) (settled : e.index.Settled)
    (now : τ) (owner : String) (root : FilePath) (force : Bool) (around : ω) :
    e.Footprint owner (e.indexWorkspace s now owner root force around).2.changed
      (e.indexWorkspace s now owner root force around).2.engine := by
  simp only [Engine.indexWorkspace]
  split
  · exact .refl settled owner
  next walk _ =>
    let found := walk.drain (s.conditions around).tree
    let goal : RunGoal := ⟨owner, found.2.root, force⟩
    let start := atStart e around found.2.faults
    have first : e.Footprint goal.owner start.changed start.engine := .refl settled owner
    exact footprint_finish honest _ _ (footprint_processAll honest now found.1 first)

end Time

end IndexRun

end CodeAtlas
