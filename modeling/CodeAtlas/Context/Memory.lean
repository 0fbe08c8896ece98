import CodeAtlas.Config.Basic
import CodeAtlas.Context.Basic
import CodeAtlas.Failure
import CodeAtlas.Links.Resolve

/-!
What is kept between questions, and the sections of a context that come from it or from the index. A
section is found by asking the index one thing after another; how often that was is told along with
what was found.
-/

namespace CodeAtlas

/-- What came of an undertaking, and how many answers it waited for. -/
structure Attempt (α : Type) where
  result : Except Failure α
  waits : Nat := 0

namespace Attempt

variable {α β : Type}

/-- An undertaking that waits for one answer. -/
def wait (answer : Except Failure α) : Attempt α :=
  ⟨answer, 1⟩

/-- One undertaking after another. -/
def andThen (a : Attempt α) (next : α → Attempt β) : Attempt β :=
  match a.result with
  | .error f => ⟨.error f, a.waits⟩
  | .ok value =>
    let b := next value
    ⟨b.result, a.waits + b.waits⟩

instance : Monad Attempt where
  pure value := ⟨.ok value, 0⟩
  bind := andThen

/-- What was found, or a default. -/
def found (a : Attempt α) (default : α) : α :=
  match a.result with
  | .ok value => value
  | .error _ => default

/-- Why nothing was found. -/
def failure? (a : Attempt α) : Option Failure :=
  match a.result with
  | .ok _ => none
  | .error f => some f

/-- The undertaking as it ends when something cuts it off. -/
def cutOff (cut : Option Failure) (a : Attempt α) : Attempt α :=
  match cut with
  | some f => ⟨.error f, a.waits⟩
  | none => a

end Attempt

/-- What the sections of a context ask of an index. -/
structure ContextSource where
  links : LinkSource
  statistics : (owner : String) → Except Failure IndexStatistics
  /-- What is given in place of the linked files, if they cannot be asked for. -/
  linkOutage : Option (Except Failure (List RelatedFile)) := none

/-- What is kept between questions. -/
structure ContextMemory (τ : Type) where
  files : Cache τ CurrentFile
  projects : Cache τ IndexStatistics
  links : Links τ

namespace ContextMemory

variable {τ : Type}

/-- So many files are kept. -/
def fileCapacity : Nat := 2000

/-- So many projects are kept. -/
def projectCapacity : Nat := 500

/-- Nothing kept yet; `duration` takes seconds to lengths of time. -/
def empty (duration : Float → τ) (c : RetrievalConfig) : ContextMemory τ :=
  { files := .empty fileCapacity (duration c.fileContextTtlSeconds)
    projects := .empty projectCapacity (duration c.projectContextTtlSeconds)
    links := .empty c.maxCandidatesPerSymbol (duration c.dependencyCacheTtlSeconds) }

/-- The key of an owner, with which the keys of the files of the owner start. -/
def ownerKey (owner : String) : String :=
  owner ++ "\x00"

/-- The key of a file. -/
def fileKey (owner path : String) : String :=
  ownerKey owner ++ path

/-- Forgets the files and the project of an owner. -/
def forgetViews (owner : String) (m : ContextMemory τ) : ContextMemory τ :=
  { m with
    files := m.files.eraseUnder (ownerKey owner)
    projects := m.projects.erase (ownerKey owner) }

/-- Forgets the links of an owner. -/
def forgetLinks (owner : String) (m : ContextMemory τ) : ContextMemory τ :=
  { m with links := (m.links.invalidate owner).2 }

variable [Add τ] [LE τ] [DecidableLE τ]

/-- The current file, from its record; none when no path is given or it is not indexed. -/
def currentFile (source : ContextSource) (now : τ) (previewChars : Int) (owner path : String)
    (m : ContextMemory τ) : Attempt (Option CurrentFile) × ContextMemory τ :=
  if path.isEmpty then (pure none, m)
  else
    let (kept, files) := m.files.get now (fileKey owner path)
    let m := { m with files }
    match kept with
    | some f => (pure (some f), m)
    | none =>
      match source.links.recordsAt owner path with
      | .error f => (.wait (.error f), m)
      | .ok [] => (.wait (.ok none), m)
      | .ok (record :: _) =>
        let f := CurrentFile.ofRecord previewChars record
        (.wait (.ok (some f)), { m with files := m.files.set now (fileKey owner path) f })

/-- The files linked to a file. -/
def linked (source : ContextSource) (now : τ) (owner path : String) (m : ContextMemory τ) :
    Attempt (List RelatedFile) × ContextMemory τ :=
  match source.linkOutage with
  | some given => (.wait given, m)
  | none =>
    let (found, links) := m.links.relatedFiles source.links now owner path
    (.wait found, { m with links })

/-- The first files linked to the current one. -/
def relatedFiles (source : ContextSource) (now : τ) (count : Nat) (owner path : String)
    (m : ContextMemory τ) : Attempt (List RelatedFile) × ContextMemory τ :=
  if path.isEmpty then (pure [], m)
  else
    let (found, m) := m.linked source now owner path
    (do return (← found).take count, m)

/-- The module under which a file is imported: that of the first import that names one of the
symbols, or its path. -/
def moduleOf (imports : List ImportRef) (r : RelatedFile) : String :=
  match imports.find? fun i => i.names.any r.symbols.contains with
  | some i => i.module
  | none => r.relativePath

/-- The entries for files that the current one imports from; a file that is not indexed has none. -/
def dependencyEntries (source : ContextSource) (functionCount : Nat) (owner : String)
    (imports : List ImportRef) : List RelatedFile → Attempt (List DependencyEntry)
  | [] => pure []
  | r :: rest => do
    let records ← .wait (source.links.recordsAt owner r.path)
    let entries ← dependencyEntries source functionCount owner imports rest
    match records with
    | [] => return entries
    | target :: _ =>
      return {
        module := moduleOf imports r
        path := target.path
        relativePath := target.relativePath
        exports := target.exports
        keyFunctions := target.keyFunctions functionCount } :: entries

/-- What the current file imports from. -/
def dependencies (source : ContextSource) (now : τ) (functionCount : Nat) (owner path : String)
    (m : ContextMemory τ) : Attempt (List DependencyEntry) × ContextMemory τ :=
  if path.isEmpty then (pure [], m)
  else
    match source.links.recordsAt owner path with
    | .error f => (.wait (.error f), m)
    | .ok [] => (.wait (.ok []), m)
    | .ok (record :: _) =>
      let (found, m) := m.linked source now owner path
      (do
        let () ← .wait (.ok ())
        let targets := (← found).filter (·.direction == .importsFrom)
        dependencyEntries source functionCount owner record.imports targets, m)

/-- The project of an owner in numbers. -/
def project (source : ContextSource) (now : τ) (owner : String) (m : ContextMemory τ) :
    Attempt IndexStatistics × ContextMemory τ :=
  let (kept, projects) := m.projects.get now (ownerKey owner)
  let m := { m with projects }
  match kept with
  | some s => (pure s, m)
  | none =>
    match source.statistics owner with
    | .error f => (.wait (.error f), m)
    | .ok s => (.wait (.ok s), { m with projects := m.projects.set now (ownerKey owner) s })

end ContextMemory

end CodeAtlas
