import CodeAtlas.Engine.Entry
import CodeAtlas.Proofs.Embedding.Embedder
import CodeAtlas.Proofs.Index.Calls

/-!
# Entries of files

The entry of a file is decided by its content, its path and the configuration; only times and the
vectors of a provider come from elsewhere. `EntryDraft.of` is that entry before it is embedded.

## Main results

`Engine.draft_ok` and `Engine.entry_ok`: an entry is the one that the outline of the content
decides, or is not needed since the content stands in the index. `Engine.entry_calm`: without a
provider there is one whenever the file can be read and nothing is out of order.
-/

namespace CodeAtlas

namespace Conditions

/-- Operations that are out of order fail; none is replaced by a fixed answer. A transaction can
always be undone. -/
structure Honest (c : Conditions) : Prop where
  failing : ∀ part v, c.outage part ≠ some (.answers v)
  undoable : c.faults.Undoable

/-- Honest conditions in which what is kept can always be forgotten. -/
structure Genuine (c : Conditions) : Prop where
  failing : ∀ part v, c.outage part ≠ some (.answers v)
  forgetting : c.outage .forgetLinks = none
  undoable : c.faults.Undoable

theorem Genuine.honest {c : Conditions} (genuine : c.Genuine) : c.Honest :=
  ⟨genuine.failing, genuine.undoable⟩

/-- Nothing is out of order. -/
structure InOrder (c : Conditions) : Prop where
  working : ∀ part, c.outage part = none
  faultless : c.faults = Faults.none

/-- Nothing is out of order, and nothing is called off. -/
structure Calm (c : Conditions) : Prop where
  working : ∀ part, c.outage part = none
  faultless : c.faults = Faults.none
  ongoing : c.cancelled = false

/-- Nothing is out of order where only a tree is given. -/
theorem calm_tree (tree : Tree) : ({ tree } : Conditions).Calm :=
  ⟨fun _ => rfl, rfl, rfl⟩

theorem Calm.inOrder {c : Conditions} (calm : c.Calm) : c.InOrder :=
  ⟨calm.working, calm.faultless⟩

theorem InOrder.honest {c : Conditions} (order : c.InOrder) : c.Honest where
  failing part v := by simp [order.working part]
  undoable := by
    rw [order.faultless]
    exact Faults.none_undoable

theorem Calm.genuine {c : Conditions} (calm : c.Calm) : c.Genuine :=
  ⟨calm.inOrder.honest.failing, calm.working _, calm.inOrder.honest.undoable⟩

variable {c : Conditions} {α σ : Type} {part : EnginePart} {read : Value → Except Failure α}

/-- What is answered under honest conditions is the answer of the operation. -/
theorem Honest.guard_ok (honest : c.Honest) {answer : Except Failure α} {a : α}
    (answered : c.guard part read answer = .ok a) : answer = .ok a := by
  unfold guard at answered
  split at answered
  next outage out =>
    cases outage with
    | fails f => cases answered
    | answers v => exact absurd out (honest.failing part v)
  · exact answered

/-- An operation on a state is done under honest conditions, or fails and leaves the state. -/
theorem Honest.guardOn_cases (honest : c.Honest) (part : EnginePart)
    (read : Value → Except Failure α) (operation : σ → Except Failure α × σ) (before : σ) :
    c.guardOn part read operation before = operation before ∨
      ∃ f, c.guardOn part read operation before = (.error f, before) := by
  unfold guardOn
  split
  next outage out =>
    cases outage with
    | fails f => exact .inr ⟨f, rfl⟩
    | answers v => exact absurd out (honest.failing part v)
  · exact .inl rfl

theorem InOrder.guard_eq (order : c.InOrder) (answer : Except Failure α) :
    c.guard part read answer = answer := by
  simp only [guard, order.working part]

theorem InOrder.guardOn_eq (order : c.InOrder) (operation : σ → Except Failure α × σ)
    (before : σ) : c.guardOn part read operation before = operation before := by
  simp only [guardOn, order.working part]

end Conditions

/-- Surroundings in which nothing is out of order and nothing changes. -/
def Surroundings.quiet (t : Tree) : Surroundings Unit :=
  ⟨fun _ => { tree := t }, fun w _ => w⟩

theorem Surroundings.calm_quiet (t : Tree) (w : Unit) : ((quiet t).conditions w).Calm :=
  Conditions.calm_tree t

namespace EntryDraft

/-- The draft that a file and its outline make. -/
def ofOutline (a : OutlineConfig) (owner : String) (workspace path : FilePath) (read : ReadFile)
    (now : Timestamp) (outline : Outline) : EntryDraft :=
  ⟨IndexedFile.ofOutline owner workspace path read.content read.contentHash outline
      (some read.modifiedAt) now,
    ChunkDraft.ofOutline a path.text read.content outline⟩

/-- The draft that the content of a file decides. -/
def of (a : OutlineConfig) (owner : String) (workspace path : FilePath) (read : ReadFile)
    (now : Timestamp) : EntryDraft :=
  ofOutline a owner workspace path read now (Outline.analyze a path.text read.content)

/-- The embeddings of the chunks without a provider. -/
def features (c : EmbeddingConfig) (d : EntryDraft) : List Embedding :=
  (d.chunks.map (·.embeddingText)).map fun text =>
    Feature.embedding (Feature.normalize c.maxTextChars text) c.fallbackDimensions

end EntryDraft

namespace Engine

variable {τ σ : Type} {c : Conditions} {owner : String} {workspace path : FilePath} {force : Bool}
  {e : Engine τ σ}

/-- The hash that is stored for a file. -/
def storedHash (e : Engine τ σ) (owner : String) (workspace path : FilePath) : Option String :=
  (e.index.tables.file? owner workspace.text path.text).map (·.contentHash)

private theorem bind_ok {α β : Type} {first : Except Failure α} {next : α → Except Failure β}
    {b : β} (done : (first >>= next) = .ok b) : ∃ a, first = .ok a ∧ next a = .ok b := by
  cases first with
  | error f => cases done
  | ok a => exact ⟨a, rfl, done⟩

theorem fileHash_ok (honest : c.Honest) {stored : Option String}
    (asked : c.guard .fileHash Outage.text?
      (e.index.fileHash c.faults owner workspace.text path.text) = .ok stored) :
    stored = e.storedHash owner workspace path := by
  obtain ⟨t, read, found⟩ := bind_ok (honest.guard_ok asked)
  -- A read answers from the tables as they are.
  have same : t = e.index.tables := by
    simp only [Index.read] at read
    split at read
    · cases read
    · split at read
      · exact (Except.ok.inj read).symm
      · cases read
  rw [← Except.ok.inj found, same]
  rfl

/-- A file is outlined by its content while the grammar is in order. -/
theorem outline_ok (honest : c.Honest) {content : String} {outline : Outline}
    (outlined : e.outline c path content = .ok outline) (grammar : c.outage .grammar = none) :
    outline = Outline.analyze e.config.analyzer path.text content := by
  simp only [Engine.outline, grammar] at outlined
  exact (Except.ok.inj (honest.guard_ok outlined)).symm

/-- The draft of a file that has been read. -/
def draftRead (c : Conditions) (owner : String) (workspace path : FilePath) (read : ReadFile)
    (e : Engine τ σ) : Except Failure EntryDraft :=
  e.outline c path read.content >>= fun outline =>
    c.guard .chunk (Outage.items "embedding_text")
      (.ok (ChunkDraft.ofOutline e.config.analyzer path.text read.content outline)) >>= fun chunks =>
        .ok ⟨IndexedFile.ofOutline owner workspace path read.content read.contentHash outline
          (some read.modifiedAt) e.index.now, chunks⟩

theorem draft_eq : e.draft c owner workspace path force =
    ReadFile.of c.tree path >>= fun read =>
      (if force then .ok none
        else c.guard .fileHash Outage.text?
          (e.index.fileHash c.faults owner workspace.text path.text)) >>= fun stored =>
            if stored == some read.contentHash then .ok none
            else (e.draftRead c owner workspace path read).map some := by
  unfold draft
  refine congrArg _ (funext fun read => ?_)
  have drafted : (e.draftRead c owner workspace path read).map some =
      (do
        let outline ← e.outline c path read.content
        let chunks ← c.guard .chunk (Outage.items "embedding_text")
          (.ok (ChunkDraft.ofOutline e.config.analyzer path.text read.content outline))
        return some ⟨IndexedFile.ofOutline owner workspace path read.content read.contentHash
          outline (some read.modifiedAt) e.index.now, chunks⟩) := by
    unfold draftRead
    cases e.outline c path read.content with
    | error f => rfl
    | ok outline =>
      show Except.map some (c.guard .chunk _ _ >>= _) = (c.guard .chunk _ _ >>= _)
      cases c.guard .chunk (Outage.items "embedding_text")
        (.ok (ChunkDraft.ofOutline e.config.analyzer path.text read.content outline)) <;> rfl
  rw [drafted]
  cases force <;> rfl

/-- A file has a draft, which its outline decides, or its content stands in the index. -/
theorem draft_ok (honest : c.Honest) {found : Option EntryDraft}
    (drafted : e.draft c owner workspace path force = .ok found) :
    ∃ read, ReadFile.of c.tree path = .ok read ∧
      ((found = none ∧ e.storedHash owner workspace path = some read.contentHash) ∨
        ∃ outline, e.outline c path read.content = .ok outline ∧
          found = some (.ofOutline e.config.analyzer owner workspace path read e.index.now
            outline)) := by
  rw [draft_eq] at drafted
  obtain ⟨read, given, known⟩ := bind_ok drafted
  obtain ⟨stored, asked, answered⟩ := bind_ok known
  refine ⟨read, given, ?_⟩
  split at answered
  next same =>
    -- Only a file that is not forced is compared with the index.
    cases force with
    | true =>
      cases asked
      simp at same
    | false =>
      refine .inl ⟨(Except.ok.inj answered).symm, ?_⟩
      rw [← fileHash_ok honest asked]
      simpa using same
  · cases full : e.draftRead c owner workspace path read with
    | error f =>
      rw [full] at answered
      cases answered
    | ok d =>
      rw [full] at answered
      obtain ⟨outline, outlined, full⟩ := bind_ok full
      obtain ⟨chunks, cut, full⟩ := bind_ok full
      rw [← Except.ok.inj answered, ← Except.ok.inj full, ← Except.ok.inj (honest.guard_ok cut)]
      exact .inr ⟨outline, outlined, rfl⟩

/-- When nothing is out of order every readable file has an answer. -/
theorem draft_calm (calm : c.Calm) (opened : e.index.isOpen = true) {read : ReadFile}
    (given : ReadFile.of c.tree path = .ok read) :
    ∃ found, e.draft c owner workspace path force = .ok found := by
  have outlined : e.outline c path read.content =
      .ok (Outline.analyze e.config.analyzer path.text read.content) := by
    simp only [outline, calm.inOrder.guard_eq, calm.working]
  have full : ∃ d, e.draftRead c owner workspace path read = .ok d := by
    simp only [draftRead, outlined, calm.inOrder.guard_eq]
    exact ⟨_, rfl⟩
  have asked : ∃ stored, (if force then .ok none
      else c.guard .fileHash Outage.text?
        (e.index.fileHash c.faults owner workspace.text path.text)) = Except.ok stored := by
    simp only [calm.inOrder.guard_eq, Index.fileHash, Index.read, calm.faultless, Faults.none, opened,
      if_true]
    cases force <;> exact ⟨_, rfl⟩
  obtain ⟨d, full⟩ := full
  obtain ⟨stored, asked⟩ := asked
  rw [draft_eq, given, asked]
  show ∃ found, (if (stored == some read.contentHash) = true then .ok none
    else (e.draftRead c owner workspace path read).map some) = Except.ok found
  rw [full]
  split <;> exact ⟨_, rfl⟩

section Time

set_option linter.unusedSectionVars false

variable [Add τ] [Sub τ] [LE τ] [DecidableLE τ] [LT τ] [DecidableLT τ] [OfNat τ 0] {now : τ}

/-- Making an entry works the embedder and nothing else. -/
theorem entry_engine (c : Conditions) (now : τ) (owner : String) (workspace path : FilePath)
    (force : Bool) (e : Engine τ σ) : ∃ embedder, e.embedder.Work embedder ∧
      (e.entry c now owner workspace path force).2 = { e with embedder } := by
  simp only [entry]
  split
  · exact ⟨e.embedder, .refl _, rfl⟩
  · exact ⟨e.embedder, .refl _, rfl⟩
  · split
    · exact ⟨e.embedder, .refl _, rfl⟩
    · exact ⟨_, Embedder.work_patiently _ (fun e => Embedder.work_embedAll e _) e.embedder, rfl⟩

/-- Some time is given to each file. -/
def Timely (c : EngineConfig) : Prop :=
  ¬ Number.Scalar.real c.indexing.fileTimeoutSeconds ≤ 0

/-- An entry is the draft that the outline of the file decides, with one embedding for each chunk;
or the content stands in the index. -/
theorem entry_ok (honest : c.Honest) {found : Option IndexEntry}
    (made : (e.entry c now owner workspace path force).1 = .ok found) :
    ∃ read, ReadFile.of c.tree path = .ok read ∧
      ((found = none ∧ e.storedHash owner workspace path = some read.contentHash) ∨
        ∃ (outline : Outline) (d : EntryDraft) (embeddings : List Embedding),
          (c.outage .grammar = none →
            outline = Outline.analyze e.config.analyzer path.text read.content) ∧
          d = .ofOutline e.config.analyzer owner workspace path read e.index.now outline ∧
          found = some (d.embedded embeddings) ∧
          (0 < e.embedder.config.batchSize → embeddings.length = d.chunks.length) ∧
          (e.embedder.Offline → embeddings = d.features e.embedder.config) ∧
          Timely e.config) := by
  simp only [entry] at made
  split at made
  · cases made
  next drafted =>
    obtain ⟨read, given, ⟨_, same⟩ | ⟨_, _, other⟩⟩ := draft_ok honest drafted
    · exact ⟨read, given, .inl ⟨(Except.ok.inj made).symm, same⟩⟩
    · cases other
  next d drafted =>
    obtain ⟨read, given, ⟨other, _⟩ | ⟨outline, outlined, drafted⟩⟩ := draft_ok honest drafted
    · cases other
    · refine ⟨read, given, .inr ⟨outline, d, ?_⟩⟩
      split at made
      next outage out =>
        cases outage with
        | fails f => cases made
        -- Honest conditions put no answer in the place of an embedding.
        | answers v => exact absurd out (honest.failing _ v)
      · simp only [Deadline.guard] at made
        split at made
        · cases made
        next timely =>
          generalize ran : (e.embedder.patiently _ _).1 = ending at made
          cases ending with
          | value embeddings =>
            refine ⟨embeddings, outline_ok honest outlined, Option.some.inj drafted,
              (Except.ok.inj made).symm, fun positive => ?_, fun offline => ?_, timely⟩
            · rw [Embedder.length_patiently positive ran, List.length_map]
            · rw [Embedder.patiently_offline offline] at ran
              exact (Ending.value.inj ran).symm
          -- Of the endings only a value makes an entry.
          | raised f => cases made
          | timedOut => cases made
          | never => cases made

/-- When nothing is out of order and there is no provider, every readable file has an answer. -/
theorem entry_calm (calm : c.Calm) (opened : e.index.isOpen = true)
    (offline : e.embedder.Offline) (timely : Timely e.config) {read : ReadFile}
    (given : ReadFile.of c.tree path = .ok read) :
    ∃ found, (e.entry c now owner workspace path force).1 = .ok found := by
  obtain ⟨found, drafted⟩ : ∃ found, e.draft c owner workspace path force = .ok found :=
    draft_calm calm opened given
  simp only [entry, drafted]
  cases found with
  | none => exact ⟨none, rfl⟩
  | some d =>
    simp only [calm.working, Deadline.guard, Embedder.patiently_offline offline]
    exact ⟨_, if_neg timely⟩

end Time

end Engine

end CodeAtlas
