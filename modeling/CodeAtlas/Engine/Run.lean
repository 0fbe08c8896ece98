import CodeAtlas.Engine.Entry
import CodeAtlas.Index.Write
import CodeAtlas.Tree.Walk

/-!
Indexing a workspace. A run goes through the files of the workspace one by one and writes the entry
of each that has changed; a file that fails is reported and the run goes on. Unless it is called
off, the run then removes what the walk did not find any more, but keeps what lies under a path that
could not be inspected. At last it saves what kind of project the workspace is.
-/

namespace CodeAtlas

/-- A run under way: the engine, what surrounds it, the report so far, and the paths of the files
that changed, in order. -/
structure IndexRun (τ σ ω : Type) where
  engine : Engine τ σ
  around : ω
  report : RunReport := {}
  changed : List String := []

/-- What a run indexes: the workspace of an owner. -/
structure RunGoal where
  owner : String
  workspace : FilePath
  /-- Files are written even when their content is the same. -/
  force : Bool

namespace RunReport

/-- One more file was looked at. -/
def countProcessed (r : RunReport) : RunReport :=
  { r with processed := r.processed + 1 }

/-- One more file was the same. -/
def countSkipped (r : RunReport) : RunReport :=
  { r with skipped := r.skipped + 1 }

/-- One more file was written, with so many chunks. -/
def countWritten (chunks : Nat) (r : RunReport) : RunReport :=
  { r with updated := r.updated + 1, embeddings := r.embeddings + chunks }

/-- One more file failed. -/
def addError (path : FilePath) (f : Failure) (r : RunReport) : RunReport :=
  { r with errors := r.errors ++ [⟨path.text, f.message⟩] }

end RunReport

namespace IndexRun

variable {τ σ ω : Type}

/-- The run with its report changed. -/
def reported (change : RunReport → RunReport) (run : IndexRun τ σ ω) : IndexRun τ σ ω :=
  { run with report := change run.report }

/-- Lets it be known that a file changed: the engine forgets what it keeps of the owner, then the
surroundings react. -/
def tell (s : Surroundings ω) (owner : String) (run : IndexRun τ σ ω) (path : String) :
    IndexRun τ σ ω :=
  { run with
    engine := (run.engine.forget (s.conditions run.around) owner).2
    around := s.react run.around (.changed path)
    changed := run.changed ++ [path] }

/-- Writes an entry. -/
def write (s : Surroundings ω) (goal : RunGoal) (path : FilePath) (entry : IndexEntry)
    (run : IndexRun τ σ ω) : IndexRun τ σ ω :=
  let c := s.conditions run.around
  let (outcome, index) := c.guardOn .upsert Outage.outcome
    (Index.upsert c.faults entry.file entry.chunks goal.force) run.engine.index
  let run := { run with engine := { run.engine with index } }
  match outcome with
  | .error f => run.reported (·.addError path f)
  | .ok .unchanged => run.reported RunReport.countSkipped
  | .ok _ =>
    (run.reported (·.countWritten entry.chunks.length)).tell s goal.owner entry.file.path

section Time

variable [Add τ] [Sub τ] [LE τ] [DecidableLE τ] [LT τ] [DecidableLT τ] [OfNat τ 0]

/-- Deals with one file; with none any more once the run is called off. -/
def process (s : Surroundings ω) (now : τ) (goal : RunGoal) (run : IndexRun τ σ ω)
    (path : FilePath) : IndexRun τ σ ω :=
  let c := s.conditions run.around
  if c.cancelled then run.reported fun r => { r with cancelled := true }
  else
    let run := run.reported RunReport.countProcessed
    let (entry, engine) := run.engine.entry c now goal.owner goal.workspace path goal.force
    let run := { run with engine }
    let run := match entry with
      | .error f => run.reported (·.addError path f)
      | .ok none => run.reported RunReport.countSkipped
      | .ok (some entry) => run.write s goal path entry
    { run with around := s.react run.around (.finished path) }

end Time

/-- A path is one of some paths or lies below one, by whole components. -/
def isUnderAny (roots : List String) (path : String) : Bool :=
  roots.any fun root =>
    path == root ||
      (String.ofList (Text.dropTrailing '/' root.toList) ++ "/").isPrefixOf path

/-- Removes the files that the walk did not find, those under unreadable paths excepted. -/
def sweep (s : Surroundings ω) (goal : RunGoal) (files : List FilePath) (unreadable : List String)
    (run : IndexRun τ σ ω) : Option Failure × IndexRun τ σ ω :=
  let c := s.conditions run.around
  let ix := run.engine.index
  let listed := ix.list c.faults goal.owner (some goal.workspace.text)
  match c.guard .list (Outage.items "file_path") listed with
  | .error f => (some f, run)
  | .ok summaries =>
    let stored := summaries.map (·.path)
    let walked := files.map (·.text)
    let kept := stored.filter fun p => !walked.contains p && isUnderAny unreadable p
    let live := walked ++ kept
    let (outcome, index) := c.guardOn .sweep Outage.count
      (Index.sweep c.faults goal.owner goal.workspace.text live) ix
    let run := { run with engine := { run.engine with index } }
    match outcome with
    | .error f => (some f, run)
    | .ok deleted =>
      let run := run.reported fun r => { r with deleted := deleted }
      let gone := (distinct stored).filter fun p => !live.contains p
      (none, gone.foldl (tell s goal.owner) run)

/-- Saves what kind of project the workspace is; when that fails, nothing is saved. -/
def saveStructure (s : Surroundings ω) (goal : RunGoal) (run : IndexRun τ σ ω) :
    IndexRun τ σ ω :=
  let c := s.conditions run.around
  match ProjectStructure.detect c.tree goal.workspace with
  | .error _ => run
  | .ok found =>
    let (_, index) := c.guardOn .saveStructure Outage.ignored
      (Index.saveStructure c.faults goal.owner goal.workspace.text found) run.engine.index
    { run with engine := { run.engine with index } }

/-- What follows the files: the sweep, unless the run was called off, and the structure. -/
def finish (s : Surroundings ω) (goal : RunGoal) (files : List FilePath) (unreadable : List String)
    (run : IndexRun τ σ ω) : Option Failure × IndexRun τ σ ω :=
  if run.report.cancelled then (none, run.saveStructure s goal)
  else match run.sweep s goal files unreadable with
    | (some f, run) => (some f, run)
    | (none, run) => (none, run.saveStructure s goal)

end IndexRun

namespace Engine

variable {τ σ ω : Type}
variable [Add τ] [Sub τ] [LE τ] [DecidableLE τ] [LT τ] [DecidableLT τ] [OfNat τ 0]

/-- Indexes the workspace at a root for an owner: the failure that ended the run early, if one did,
and the run as it ended. -/
def indexWorkspace (s : Surroundings ω) (now : τ) (owner : String) (root : FilePath) (force : Bool)
    (e : Engine τ σ) (around : ω) : Option Failure × IndexRun τ σ ω :=
  let tree := (s.conditions around).tree
  match Walk.start e.config.scanner tree root with
  | .error fault => (some fault.failure, ⟨e, around, {}, []⟩)
  | .ok walk =>
    let (files, walk) := walk.drain tree
    let goal : RunGoal := ⟨owner, walk.root, force⟩
    let errors := walk.faults.map fun f => (⟨f.path, f.error⟩ : FileError)
    let run := files.foldl (IndexRun.process s now goal) ⟨e, around, { errors }, []⟩
    run.finish s goal files (walk.faults.map (·.path))

end Engine

end CodeAtlas
