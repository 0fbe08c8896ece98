import CodeAtlas.Context.Budget
import CodeAtlas.Context.Focus
import CodeAtlas.Engine.Basic
import CodeAtlas.Index.Query

/-!
Retrieving the context of a question. The sections are found side by side, each for itself: one that
fails or takes too long stays empty and is named, and the others are not touched by it. What was
found is then seen through the focus of the question and pruned to its budget.
-/

namespace CodeAtlas

/-- A section of a context. -/
inductive ContextSection where
  | currentFile
  | similarCode
  | dependencies
  | relatedFiles
  | project
  deriving DecidableEq

namespace ContextSection

/-- The word for a section. -/
def word : ContextSection → String
  | currentFile => "current_file"
  | similarCode => "similar_code"
  | dependencies => "dependencies"
  | relatedFiles => "related_files"
  | project => "project_context"

/-- Every section. -/
def all : List ContextSection :=
  [currentFile, similarCode, dependencies, relatedFiles, project]

/-- The operation that finds a section. -/
def operation (s : ContextSection) : String :=
  "retrieval_" ++ s.word

/-- A section that was not found, whether its time ran out, and how many answers it waited for. -/
structure Loss where
  part : ContextSection
  overdue : Bool
  waits : Nat

/-- What is lost when an attempt at a section failed. -/
def loss? (part : ContextSection) (a : Attempt α) : Option Loss :=
  a.failure?.map fun f => ⟨part, f.kind == .retrievalTimeout, a.waits⟩

/-- One section is lost no later than another: whatever runs out of time is the last, and else the
fewer answers it waited for, the earlier it is lost. -/
def Loss.notAfter (a b : Loss) : Bool :=
  if a.overdue == b.overdue then decide (a.waits ≤ b.waits) else b.overdue

/-- The lost sections in the order in which they were lost. -/
def lost (losses : List (Option Loss)) : List ContextSection :=
  ((losses.filterMap id).mergeSort Loss.notAfter).map (·.part)

end ContextSection

/-- What came of the undertakings to find the sections. -/
structure SectionAttempts where
  currentFile : Attempt (Option CurrentFile)
  similarCode : Attempt (List (SimilarEntry Float))
  dependencies : Attempt (List DependencyEntry)
  relatedFiles : Attempt (List RelatedFile)
  project : Attempt IndexStatistics

namespace SectionAttempts

/-- What is lost when the undertaking for a section failed. -/
def loss? (a : SectionAttempts) (part : ContextSection) : Option ContextSection.Loss :=
  match part with
  | .currentFile => part.loss? a.currentFile
  | .similarCode => part.loss? a.similarCode
  | .dependencies => part.loss? a.dependencies
  | .relatedFiles => part.loss? a.relatedFiles
  | .project => part.loss? a.project

/-- The context of the sections that were found. -/
def bundle (a : SectionAttempts) : Bundle Float :=
  { currentFile := a.currentFile.found none
    relatedFiles := a.relatedFiles.found []
    dependencies := a.dependencies.found []
    similarCode := a.similarCode.found []
    project := a.project.result.toOption
    degraded := (ContextSection.lost (ContextSection.all.map a.loss?)).map (·.word) }

end SectionAttempts

namespace Engine

variable {τ σ : Type}

/-- What the sections ask of the index of an engine. -/
def source (c : Conditions) (ix : Index) : ContextSource where
  links :=
    { recordsAt := fun owner path =>
        c.guard .recordsAt (Outage.records "file_path") (ix.recordsAt c.faults owner path)
      symbolFiles := fun owner symbol use limit =>
        let part := match use with
          | .exported => EnginePart.exporters
          | .imported => EnginePart.importers
        c.guard part (Outage.items "file_path") (ix.symbolFiles c.faults owner symbol use limit) }
  statistics owner :=
    c.guard .statistics (Outage.useless "total_files") (ix.statistics c.faults owner)
  linkOutage := (c.outage .relatedFiles).map (·.result (Outage.items "relationship"))

/-- The effective budget of a question. -/
def budget (config : RetrievalConfig) (options : ContextOptions) : Nat :=
  match options.maxTokens with
  | some n => if n == 0 then config.defaultMaxTokens else n
  | none => config.defaultMaxTokens

variable [Add τ] [Sub τ] [LE τ] [DecidableLE τ] [LT τ] [DecidableLT τ] [OfNat τ 0]

/-- Code like the question, outside the current file. The provider gets only a part of the time, so
that some is left for the index. -/
def similarCode (c : Conditions) (now : τ) (owner query : String) (path : Option String)
    (options : ContextOptions) (e : Engine τ σ) :
    Attempt (List (SimilarEntry Float)) × Engine τ σ :=
  let r := e.config.retrieval
  match c.outage .embed with
  | some outage => (⟨outage.result (Outage.useless "vector"), 0⟩, e)
  | none =>
    let share := r.stepTimeoutSeconds * r.queryEmbeddingTimeoutRatio
    let (ending, embedder) :=
      e.embedder.patiently r.stepTimeoutSeconds (·.embed now query (some share))
    let embedded := Deadline.guard .retrievalTimeout ContextSection.similarCode.operation
      (.real r.stepTimeoutSeconds) ending
    let question (embedding : Embedding) : Index.SimilarQuery :=
      { vector := embedding.vector
        filter :=
          { workspace := options.workspace, excludedFile := path, model := some embedding.model }
        count := r.similarTopK
        least := r.minSimilarity
        fallbackWeight := r.fallbackWeight }
    (do
      let embedding ← ⟨embedded, if embedder.provider.isSome then 1 else 0⟩
      let chunks ← .wait (c.guard .similar (Outage.items "file_path")
        (e.index.similar c.faults owner (question embedding)))
      return chunks.map SimilarEntry.ofChunk, { e with embedder })

/-- What comes of looking for the sections of a context, some of which may be cut off. -/
def attempts (c : Conditions) (now : τ) (owner query : String) (path : Option String)
    (options : ContextOptions) (e : Engine τ σ) (cut : ContextSection → Option Failure) :
    SectionAttempts × Engine τ σ :=
  let r := e.config.retrieval
  let from_ := source c e.index
  let file := path.getD ""
  let (current, memory) := e.memory.currentFile from_ now r.contentPreviewChars owner file
  let (dependencies, memory) :=
    memory.dependencies from_ now r.keyFunctionsPerDependency owner file
  let (related, memory) := memory.relatedFiles from_ now r.maxRelatedFiles owner file
  let (project, memory) := memory.project from_ now owner
  let (similar, e) := { e with memory }.similarCode c now owner query path options
  ({ currentFile := current.cutOff (cut .currentFile)
     similarCode := similar.cutOff (cut .similarCode)
     dependencies := dependencies.cutOff (cut .dependencies)
     relatedFiles := related.cutOff (cut .relatedFiles)
     project := project.cutOff (cut .project) }, e)

/-- The sections of a context as they are found. -/
def sections (c : Conditions) (now : τ) (owner query : String) (path : Option String)
    (options : ContextOptions) (e : Engine τ σ)
    (cut : ContextSection → Option Failure := fun _ => none) : Bundle Float × Engine τ σ :=
  let (found, e) := e.attempts c now owner query path options cut
  (found.bundle, e)

/-- The context of a question that an owner asks, perhaps from a file. -/
def retrieve (c : Conditions) (now : τ) (owner query : String) (path : Option String)
    (options : ContextOptions) (e : Engine τ σ)
    (cut : ContextSection → Option Failure := fun _ => none) :
    Except Failure (Bundle Float) × Engine τ σ :=
  match c.outage .retrieve with
  | some outage => (outage.result (Outage.useless "current_file"), e)
  | none =>
    let r := e.config.retrieval
    let (bundle, e) := e.sections c now owner query path options cut
    let seen := bundle.focused options.focus options.includeTests r.focusBoost
    ((seen.pruned (.whole (budget r options)) (.whole r.charsPerToken)).mapError (·.failure), e)

end Engine

end CodeAtlas
