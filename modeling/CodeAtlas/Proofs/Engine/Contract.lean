import CodeAtlas.Proofs.Config.Standard
import CodeAtlas.Proofs.Context.Budget
import CodeAtlas.Proofs.Context.Focus
import CodeAtlas.Proofs.Engine.History
import CodeAtlas.Proofs.Index.History
import CodeAtlas.Proofs.Index.Similar

/-!
# What a retrieval promises

Whatever becomes of its sections, a retrieval gives a context. What it says of the context is
established by one stage and kept by the later ones: the sections are found, seen through the focus
and pruned, and each stage only leaves entries out or moves them.

## Main results

`SectionAttempts.lost_perm`: the sections that are named are those that failed.
`Engine.attempts_ok`: what the sections come to. `Engine.retrieve_answers` puts the stages together.
-/

namespace CodeAtlas

open Number (IsNumber)

/-! ### Sections that fail -/

namespace Attempt

variable {α β : Type}

theorem found_of_failed {a : Attempt α} (failed : a.failure?.isSome = true) (default : α) :
    a.found default = default := by
  simp only [failure?, found] at failed ⊢
  split
  next value ended =>
    rw [ended] at failed
    cases failed
  · rfl

/-- What is found is the default or what the undertaking ended with. -/
theorem found_cases (a : Attempt α) (default : α) :
    a.found default = default ∨ a.result = .ok (a.found default) := by
  simp only [found]
  split
  next value ended => exact .inr ended
  · exact .inl rfl

theorem found_cutOff (cut : Option Failure) (a : Attempt α) (default : α) :
    (a.cutOff cut).found default = default ∨ (a.cutOff cut).found default = a.found default := by
  cases cut with
  | some f => exact .inl rfl
  | none => exact .inr rfl

/-- One undertaking after another ends well when both do. -/
theorem bind_ok {a : Attempt α} {next : α → Attempt β} {last : β}
    (ended : (a >>= next).result = .ok last) :
    ∃ value, a.result = .ok value ∧ (next value).result = .ok last := by
  rw [result_bind] at ended
  cases first : a.result with
  | error f =>
    rw [first] at ended
    cases ended
  | ok value =>
    rw [first] at ended
    exact ⟨value, rfl, ended⟩

end Attempt

namespace ContextSection

/-- Nothing of the section is in the context. -/
def Lacks {κ : Type} (b : Bundle κ) : ContextSection → Prop
  | currentFile => b.currentFile = none
  | similarCode => b.similarCode = []
  | dependencies => b.dependencies = []
  | relatedFiles => b.relatedFiles = []
  | project => b.project = none

variable {b b' : Bundle Float} {part : ContextSection}

/-- Looking at a context adds nothing to it. -/
theorem Lacks.seen {focus : FocusArea} {includeTests : Bool}
    (seen : Bundle.Seen focus includeTests b b') (lacks : part.Lacks b) : part.Lacks b' := by
  cases part with
  | currentFile => exact seen.currentFile.trans lacks
  | similarCode =>
    have fewer := seen.fewerSimilar
    rw [show b.similarCode = [] from lacks] at fewer
    exact List.length_eq_zero_iff.mp (Nat.le_zero.mp fewer)
  | dependencies => exact seen.dependencies.trans lacks
  | relatedFiles =>
    have fewer := seen.fewerRelated
    rw [show b.relatedFiles = [] from lacks] at fewer
    exact List.length_eq_zero_iff.mp (Nat.le_zero.mp fewer)
  | project => exact seen.project.trans lacks

/-- Neither does taking entries away. -/
theorem Lacks.trimmed (trimmed : Bundle.Trimmed b b') (lacks : part.Lacks b) : part.Lacks b' := by
  have nothing {α : Type} {shorter l : List α} (leads : shorter <+: l) (empty : l = []) :
      shorter = [] := List.prefix_nil.mp (empty ▸ leads)
  cases part with
  | currentFile => exact trimmed.currentFile.trans lacks
  | similarCode => exact nothing trimmed.similarCode lacks
  | dependencies => exact nothing trimmed.dependencies lacks
  | relatedFiles => exact nothing trimmed.relatedFiles lacks
  | project => exact trimmed.project.trans lacks

/-- The text of a context that has nothing but a current file. -/
theorem format_alone (lacks : ∀ part, part ≠ .currentFile → Lacks b part) :
    b.format = ({ currentFile := b.currentFile } : Bundle Float).format := by
  have similar : b.similarCode = [] := lacks .similarCode (by decide)
  have related : b.relatedFiles = [] := lacks .relatedFiles (by decide)
  have dependencies : b.dependencies = [] := lacks .dependencies (by decide)
  have project : b.project = none := lacks .project (by decide)
  rw [Bundle.format, Bundle.blocks, similar, related, dependencies, project]
  rfl

end ContextSection

namespace SectionAttempts

variable {a : SectionAttempts} {part : ContextSection}

/-- The sections that failed, each once. -/
def failed (a : SectionAttempts) : List ContextSection :=
  ContextSection.all.filter fun part => (a.loss? part).isSome

theorem mem_failed : part ∈ a.failed ↔ (a.loss? part).isSome = true := by
  have among : part ∈ ContextSection.all := by cases part <;> decide
  simp only [failed, List.mem_filter, among, true_and]

/-- A loss says which section is lost. -/
theorem part_of_loss {l : ContextSection.Loss} (lost : a.loss? part = some l) : l.part = part := by
  have told {α : Type} {part : ContextSection} (attempt : Attempt α)
      (lost : part.loss? attempt = some l) : l.part = part := by
    obtain ⟨f, _, rfl⟩ := Option.map_eq_some_iff.mp lost
    rfl
  cases part with
  | currentFile => exact told a.currentFile lost
  | similarCode => exact told a.similarCode lost
  | dependencies => exact told a.dependencies lost
  | relatedFiles => exact told a.relatedFiles lost
  | project => exact told a.project lost

/-- However the losses follow one another, they are those of the sections that failed. -/
theorem lost_perm (a : SectionAttempts) :
    (ContextSection.lost (ContextSection.all.map a.loss?)).Perm a.failed := by
  have sorted := List.mergeSort_perm ((ContextSection.all.map a.loss?).filterMap id)
    ContextSection.Loss.notAfter
  refine (sorted.map (·.part)).trans (.of_eq ?_)
  rw [List.filterMap_map, List.map_filterMap, failed, ← List.filterMap_eq_filter]
  refine List.filterMap_congr fun part _ => ?_
  cases lost : a.loss? part with
  | none => simp [lost, Option.guard]
  | some l => simp [lost, Option.guard, part_of_loss lost]

theorem lacks_bundle (failed : part ∈ a.failed) : part.Lacks a.bundle := by
  have gone {α : Type} {part : ContextSection} (attempt : Attempt α)
      (lost : (part.loss? attempt).isSome = true) : attempt.failure?.isSome = true := by
    simpa [ContextSection.loss?] using lost
  rw [mem_failed] at failed
  cases part with
  | currentFile => exact Attempt.found_of_failed (gone a.currentFile failed) none
  | similarCode => exact Attempt.found_of_failed (gone a.similarCode failed) []
  | dependencies => exact Attempt.found_of_failed (gone a.dependencies failed) []
  | relatedFiles => exact Attempt.found_of_failed (gone a.relatedFiles failed) []
  | project =>
    have lost := gone a.project failed
    simp only [Attempt.failure?] at lost
    show a.project.result.toOption = none
    split at lost
    · cases lost
    next f ended => rw [ended]; rfl

end SectionAttempts

/-! ### Sections that are found -/

/-- No fixed answer has items that are of use. -/
theorem Outage.items_ok {α : Type} {part : String} {v : Value} {l : List α}
    (taken : items part v = .ok l) : l = [] := by
  simp only [items] at taken
  split at taken
  · exact (Except.ok.inj taken).symm
  · cases taken
  · split at taken
    · exact (Except.ok.inj taken).symm
    · cases taken
  · split at taken
    · exact (Except.ok.inj taken).symm
    · cases taken
  · cases taken

/-- An operation that is out of order gives nothing, if anything. -/
theorem Conditions.guard_items {α : Type} {c : Conditions} {part : EnginePart} {field : String}
    {answer : Except Failure (List α)} {l : List α}
    (given : c.guard part (Outage.items field) answer = .ok l) : l = [] ∨ answer = .ok l := by
  simp only [guard] at given
  split at given
  next outage _ =>
    cases outage with
    | fails f => cases given
    | answers v => exact .inl (Outage.items_ok given)
  · exact .inr given

theorem ContextMemory.length_relatedFiles {τ : Type} [Add τ] [LE τ] [DecidableLE τ]
    (source : ContextSource) (now : τ) (count : ℕ) (owner path : String) (m : ContextMemory τ) :
    ((m.relatedFiles source now count owner path).1.found []).length ≤ count := by
  rcases Attempt.found_cases (m.relatedFiles source now count owner path).1 [] with nothing | ended
  · rw [nothing]
    exact Nat.zero_le count
  · generalize (m.relatedFiles source now count owner path).1.found [] = files at ended ⊢
    simp only [relatedFiles] at ended
    split at ended
    · cases ended
      exact Nat.zero_le count
    · obtain ⟨all, _, taken⟩ := Attempt.bind_ok ended
      cases taken
      exact List.length_take_le count all

namespace Engine

variable {τ σ : Type}

section Time

variable [Add τ] [Sub τ] [LE τ] [DecidableLE τ] [LT τ] [DecidableLT τ] [OfNat τ 0]

/-- Code like the question, when any is found, is what the index answers. -/
theorem similarCode_found (c : Conditions) (now : τ) (owner query : String) (path : Option String)
    (options : ContextOptions) (e : Engine τ σ) :
    let found := (e.similarCode c now owner query path options).1.found []
    found = [] ∨ ∃ (q : Index.SimilarQuery) (chunks : List SimilarChunk),
      e.index.similar c.faults owner q = .ok chunks ∧ found = chunks.map SimilarEntry.ofChunk ∧
        q.filter.excludedFile = path ∧ q.count = e.config.retrieval.similarTopK ∧
        q.fallbackWeight = e.config.retrieval.fallbackWeight := by
  intro found
  rcases Attempt.found_cases (e.similarCode c now owner query path options).1 [] with
    nothing | ended
  · exact .inl nothing
  · change _ = Except.ok found at ended
    generalize found = entries at ended ⊢
    simp only [similarCode] at ended
    split at ended
    next outage _ =>
      -- A fixed answer is no embedding.
      cases outage <;> cases ended
    · obtain ⟨embedding, _, ended⟩ := Attempt.bind_ok ended
      obtain ⟨chunks, answer, ended⟩ := Attempt.bind_ok ended
      cases ended
      rcases Conditions.guard_items answer with rfl | answer
      · exact .inl rfl
      · exact .inr ⟨_, chunks, answer, rfl, rfl, rfl, rfl⟩

/-- The row of a stored file does not have the path that is excluded, even if that is empty. -/
theorem path_ne_excluded {ix : Index} (placed : ix.Placed) {r : FileRow}
    (member : r ∈ ix.tables.files) {p : String}
    (passes : Tables.restricts (some p) (fun path => !r.isNamed path) = true) :
    r.path ≠ p ∧ r.relativePath ≠ p := by
  simp only [Tables.restricts, FileRow.isNamed, Bool.or_eq_true, Bool.not_eq_true',
    Bool.or_eq_false_iff, beq_iff_eq, beq_eq_false_iff_ne] at passes
  rcases passes with rfl | other
  · exact placed r member
  · exact other

/-- Similar code is no more than was asked for, and none of it is in the file of the question. -/
theorem similarCode_ok (c : Conditions) (now : τ) (owner query : String) (path : Option String)
    (options : ContextOptions) {e : Engine τ σ} (bounded : e.config.retrieval.Bounded)
    (placed : e.index.Placed) :
    let found := (e.similarCode c now owner query path options).1.found []
    found.length ≤ e.config.retrieval.similarTopK ∧ ∀ s ∈ found, IsNumber s.similarity ∧
      ∀ p, path = some p → s.path ≠ p ∧ s.relativePath ≠ p := by
  intro found
  rcases similarCode_found c now owner query path options e with
    nothing | ⟨q, chunks, answer, all, excluded, count, weight⟩
  · have nothing : found = [] := nothing
    rw [nothing]
    exact ⟨Nat.zero_le _, List.forall_mem_nil _⟩
  · have all : found = chunks.map SimilarEntry.ofChunk := all
    obtain ⟨fewer, each⟩ := Index.similar_ok answer (weight ▸ bounded.weighsLittle) count
    rw [all]
    refine ⟨(List.length_map _).trans_le fewer, fun s member => ?_⟩
    obtain ⟨chunk, among, rfl⟩ := List.mem_map.mp member
    obtain ⟨number, r, stored, path_, relative, passes⟩ := each chunk among
    refine ⟨number, fun p given => ?_⟩
    rw [excluded, given] at passes
    have other := path_ne_excluded placed stored passes
    rw [← path_, ← relative] at other
    exact other

/-- What the sections come to, whatever cuts them off. -/
theorem attempts_ok (c : Conditions) (now : τ) (owner query : String) (path : Option String)
    (options : ContextOptions) (cut : ContextSection → Option Failure) {e : Engine τ σ}
    (bounded : e.config.retrieval.Bounded) (placed : e.index.Placed) :
    let b := (e.attempts c now owner query path options cut).1.bundle
    b.relatedFiles.length ≤ e.config.retrieval.maxRelatedFiles ∧
      b.similarCode.length ≤ e.config.retrieval.similarTopK ∧
      ∀ s ∈ b.similarCode, IsNumber s.similarity ∧
        ∀ p, path = some p → s.path ≠ p ∧ s.relativePath ≠ p := by
  intro b
  let r := e.config.retrieval
  let from_ := source c e.index
  let file := path.getD ""
  -- Each section is found by what the ones before it left.
  let memory := (e.memory.currentFile from_ now r.contentPreviewChars owner file).2
  let memory' := (memory.dependencies from_ now r.keyFunctionsPerDependency owner file).2
  let asked : Engine τ σ := { e with memory := e.memoryAfter c now owner file }
  constructor
  · have fewer := ContextMemory.length_relatedFiles from_ now r.maxRelatedFiles owner file memory'
    rcases Attempt.found_cutOff (cut .relatedFiles)
      (memory'.relatedFiles from_ now r.maxRelatedFiles owner file).1 [] with nothing | same
    · have nothing : b.relatedFiles = [] := nothing
      rw [nothing]
      exact Nat.zero_le _
    · exact (congrArg List.length same).trans_le fewer
  · have found := similarCode_ok (e := asked) c now owner query path options bounded placed
    rcases Attempt.found_cutOff (cut .similarCode)
      (asked.similarCode c now owner query path options).1 [] with nothing | same
    · have nothing : b.similarCode = [] := nothing
      rw [nothing]
      exact ⟨Nat.zero_le _, List.forall_mem_nil _⟩
    · have same : b.similarCode =
          (asked.similarCode c now owner query path options).1.found [] := same
      rw [same]
      exact found

/-- What a retrieval promises of the context for a question, given what came of the sections. -/
structure Answered (r : RetrievalConfig) (path : Option String) (options : ContextOptions)
    (found : SectionAttempts) (b : Bundle Float) : Prop where
  /-- The estimate is that of the text, which counts as empty when the ratio reaches this bound. -/
  estimated : r.charsPerToken < Number.twoPow 1075 * b.format.length →
    b.totalTokens = ⌈(b.format.length / r.charsPerToken : ℚ)⌉
  vast : Number.twoPow 1075 * b.format.length ≤ r.charsPerToken → b.totalTokens = 0
  affordable : b.totalTokens ≤ budget r options ∨
    b.similarCode = [] ∧ b.relatedFiles = [] ∧ b.dependencies = []
  tests : options.focus ≠ .testing → options.includeTests = false →
    (∀ f ∈ b.relatedFiles, isTestPath f.relativePath = false) ∧
      ∀ s ∈ b.similarCode, isTestPath s.relativePath = false
  elsewhere : ∀ s ∈ b.similarCode, ∀ p, path = some p → s.path ≠ p ∧ s.relativePath ≠ p
  ordered : b.similarCode.Pairwise fun s s' => s'.relevance ≤ s.relevance
  fewSimilar : b.similarCode.length ≤ r.similarTopK
  fewRelated : b.relatedFiles.length ≤ r.maxRelatedFiles
  degraded : b.degraded.Perm (found.failed.map (·.word))
  missing : ∀ part ∈ found.failed, part.Lacks b

/-- A section that is cut off has failed. -/
theorem mem_failed_of_cut (c : Conditions) (now : τ) (owner query : String) (path : Option String)
    (options : ContextOptions) (e : Engine τ σ) {cut : ContextSection → Option Failure}
    {part : ContextSection} {f : Failure} (cutOff : cut part = some f) :
    part ∈ (e.attempts c now owner query path options cut).1.failed := by
  rw [SectionAttempts.mem_failed]
  cases part <;>
    simp [attempts, SectionAttempts.loss?, ContextSection.loss?, Attempt.cutOff, cutOff,
      Attempt.failure?]

/-- Every retrieval by an engine that calls led to gives a context as it is promised, whichever of
its sections are cut off. -/
theorem retrieve_answers {v : Value} {config : EngineConfig}
    (read : EngineConfig.decode v = .ok config) {e : Engine τ σ} (reached : Reached config e)
    {c : Conditions} (order : c.outage .retrieve = none) (now : τ) (owner query : String)
    (path : Option String) (options : ContextOptions) (cut : ContextSection → Option Failure) :
    let found := (e.attempts c now owner query path options cut).1
    ∃ b, (e.retrieve c now owner query path options cut).1 = .ok b ∧
      Answered config.retrieval path options found b ∧
      ∀ part, (cut part).isSome = true → part ∈ found.failed := by
  intro found
  obtain ⟨rfl, _, placed⟩ := reached.located
  let r := e.config.retrieval
  have bounded : r.Bounded := EngineConfig.bounded read
  -- The stages one after another: what is found, seen and left.
  obtain ⟨related, similar, each⟩ :=
    attempts_ok c now owner query path options cut bounded placed
  have seen := Bundle.seen_focused options.focus options.includeTests bounded.boosts
    fun s member => (each s member).1
  obtain ⟨b, pruned, trimmed, tokens, affordable⟩ := Bundle.pruned_ok (budget r options)
    bounded.charsPerToken (found.bundle.focused options.focus options.includeTests r.focusBoost)
  have degraded : b.degraded =
      (ContextSection.lost (ContextSection.all.map found.loss?)).map (·.word) :=
    trimmed.degraded.trans seen.degraded
  have answered : Answered r path options found b := by
    constructor
    case estimated =>
      intro small
      exact tokens.trans (Tokens.ofLength_eq_ceil bounded.charsPerToken small)
    case vast =>
      intro vast
      rw [tokens, Tokens.ofLength, if_pos vast]
      rfl
    case affordable => exact affordable
    case tests =>
      intro other excluded
      obtain ⟨files, entries⟩ := seen.tests other excluded
      exact ⟨fun f member => files f (trimmed.relatedFiles.subset member),
        fun s member => entries s (trimmed.similarCode.subset member)⟩
    case elsewhere =>
      intro s member p given
      obtain ⟨s', among, path_, relative⟩ := seen.similarCode s (trimmed.similarCode.subset member)
      rw [path_, relative]
      exact (each s' among).2 p given
    case ordered => exact seen.ordered.sublist trimmed.similarCode.sublist
    case fewSimilar =>
      calc b.similarCode.length
        _ ≤ _ := trimmed.similarCode.length_le
        _ ≤ found.bundle.similarCode.length := seen.fewerSimilar
        _ ≤ r.similarTopK := similar
    case fewRelated =>
      calc b.relatedFiles.length
        _ ≤ _ := trimmed.relatedFiles.length_le
        _ ≤ found.bundle.relatedFiles.length := seen.fewerRelated
        _ ≤ r.maxRelatedFiles := related
    case degraded =>
      rw [degraded]
      exact (SectionAttempts.lost_perm found).map (·.word)
    case missing =>
      intro part failed
      exact ((SectionAttempts.lacks_bundle failed).seen seen).trimmed trimmed
  refine ⟨b, ?_, answered, fun part off => ?_⟩
  · simp only [retrieve, order]
    exact congrArg (Except.mapError (·.failure)) pruned
  · obtain ⟨f, cutOff⟩ := Option.isSome_iff_exists.mp off
    exact mem_failed_of_cut c now owner query path options e cutOff

end Time

/-- A workspace is indexed, and a context is asked for from one of its files; the search for similar
code takes too long. -/
theorem retrieve_answers_overdue :
    let tree : Tree := ⟨.dir [("a.py", .file [120] (.ofMicros 0))]⟩
    let e : Engine Int Unit := create (fun _ => 300) .standard .standard none () { clock := 0 }
    let indexed := (e.indexWorkspace (.quiet tree) 0 "o" ⟨"/", []⟩ false ()).2.engine
    let cut : ContextSection → Option Failure := fun part =>
      if part = .similarCode then some (.overdue .retrievalTimeout part.operation (.real 10))
      else none
    let found := (indexed.attempts { tree } 1 "o" "x" (some "/a.py") {} cut).1
    ∃ b, (indexed.retrieve { tree } 1 "o" "x" (some "/a.py") {} cut).1 = .ok b ∧
      Answered EngineConfig.standard.retrieval (some "/a.py") {} found b ∧
      .similarCode ∈ found.failed := by
  intro tree e indexed cut found
  have empty : Reached .standard e := .created (fun _ => 300) .standard none ()
    (Index.settled_empty 0) (List.forall_mem_nil _)
  have named : tree.Named := by decide
  have honest : ∀ w, ((Surroundings.quiet tree).conditions w).Honest := fun w =>
    (Surroundings.calm_quiet tree w).inOrder.honest
  have reached : Reached .standard indexed :=
    empty.indexed honest (fun _ => named) 0 "o" ⟨"/", []⟩ false ()
  obtain ⟨b, returned, answered, failed⟩ := retrieve_answers EngineConfig.decode_nothing reached
    (c := { tree }) rfl 1 "o" "x" (some "/a.py") {} cut
  exact ⟨b, returned, answered, failed .similarCode rfl⟩

/-- With so many characters to a token, the quotient is zero as a floating-point number, and the
text of the current file counts as no token rather than one. -/
theorem retrieve_uncounted :
    let config : EngineConfig :=
      { EngineConfig.standard with
        retrieval := { EngineConfig.standard.retrieval with charsPerToken := 10 ^ 200 * 10 ^ 200 } }
    let f : IndexedFile := {
      owner := "o", workspace := "/", path := "/a.py", relativePath := "a.py", name := "a.py"
      extension := "py", language := .python, content := "x", contentHash := ""
      indexedAt := Timestamp.ofMicros 0 }
    let e : Engine Int Unit := create (fun _ => 300) config .standard none ()
      (Index.replay 0 [⟨.file f [] false, Faults.none, Faults.none_undoable, 0⟩]).2
    let c : Conditions := { tree := ⟨.dir []⟩ }
    let cut : ContextSection → Option Failure := fun part =>
      if part = .currentFile then none else some (.plain .general "")
    EngineConfig.decode (.object [("retrieval",
        .object [("chars_per_token", .int (10 ^ 200 * 10 ^ 200))])]) = .ok config ∧
      Reached config e ∧
      ∃ b, (e.retrieve c 0 "o" "x" (some "/a.py") {} cut).1 = .ok b ∧ b.totalTokens = 0 ∧
        ⌈(b.format.length / config.retrieval.charsPerToken : ℚ)⌉ = 1 := by
  intro config f e c cut
  have read : EngineConfig.decode (.object [("retrieval",
        .object [("chars_per_token", .int (10 ^ 200 * 10 ^ 200))])]) = .ok config := rfl
  have rows : e.index.tables.files.map (fun r => (r.path, r.relativePath)) = [("/a.py", "a.py")] :=
    rfl
  have placed : e.index.Placed := by
    intro r member
    have paths := List.mem_map_of_mem (f := fun r => (r.path, r.relativePath)) member
    rw [rows, List.mem_singleton, Prod.mk.injEq] at paths
    rw [paths.1, paths.2]
    decide
  have reached : Reached config e := .created (fun _ => 300) .standard none ()
    (Index.replay_settled 0 _) placed
  let found := (e.attempts c 0 "o" "x" (some "/a.py") {} cut).1
  have plain : Plain "o" := by decide
  have kept := ContextMemory.coherent_empty (source c e.index).links (fun _ => (300 : Int))
    config.retrieval
  -- Only the current file is found, and it is that of the row.
  have asked : found.currentFile.result =
      ContextMemory.currentFileOf (source c e.index).links 500 "o" "/a.py" :=
    ContextMemory.currentFile_result kept plain 0 "/a.py"
  have stored : (e.index.tables.filesOf "o").filter (·.isNamed "/a.py") =
      [.ofRecord 1 f 1 (.ofMicros 0)] := rfl
  have answer : (source c e.index).links.recordsAt "o" "/a.py" =
      .ok [{ f with generation := 1, indexedAt := .ofMicros 0 }] := Index.recordsAt_only rfl stored
  have current : found.bundle.currentFile =
      some (.ofRecord 500 { f with generation := 1, indexedAt := .ofMicros 0 }) := by
    show found.currentFile.found none = _
    rw [Attempt.found, asked, ContextMemory.currentFileOf, answer]
    rfl
  have missing (part : ContextSection) (other : part ≠ .currentFile) : part.Lacks found.bundle :=
    SectionAttempts.lacks_bundle (mem_failed_of_cut c 0 "o" "x" (some "/a.py") {} e (if_neg other))
  have bounded := EngineConfig.bounded read
  have nothing : found.bundle.similarCode = [] := missing .similarCode (by decide)
  have seen := Bundle.seen_focused .general false bounded.boosts (b := found.bundle)
    (nothing ▸ List.forall_mem_nil _)
  obtain ⟨b, pruned, trimmed, tokens, affordable⟩ := Bundle.pruned_ok (budget config.retrieval {})
    bounded.charsPerToken (found.bundle.focused .general false config.retrieval.focusBoost)
  have lacks (part : ContextSection) (other : part ≠ .currentFile) : part.Lacks b :=
    ((missing part other).seen seen).trimmed trimmed
  have text : b.format = "[Current File]: a.py (python)\nx" := by
    rw [ContextSection.format_alone lacks, trimmed.currentFile, seen.currentFile, current]
    decide +kernel
  have length : b.format.length = 31 := by
    rw [text]
    decide +kernel
  have returned : (e.retrieve c 0 "o" "x" (some "/a.py") {} cut).1 = .ok b :=
    congrArg (Except.mapError fun fault : Tokens.RatioFault => fault.failure) pruned
  refine ⟨read, reached, b, returned, ?_, ?_⟩
  · rw [tokens, length]
    decide +kernel
  · rw [length, Int.ceil_eq_iff]
    norm_num

end Engine

end CodeAtlas
