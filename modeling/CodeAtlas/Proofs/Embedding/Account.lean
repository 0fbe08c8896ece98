import CodeAtlas.Proofs.Config.Standard
import CodeAtlas.Proofs.Embedding.Exchange
import Mathlib.Data.Set.Function

/-!
# Where embeddings come from

An embedding that is tagged as one of the provider's has a vector that the provider gave for exactly
this normalized text: in the call at hand, or in an earlier one from which the cache still holds it.
Every other text has its feature vector. The cache is read under digests, so this needs that no two
of the texts have digests that collide.

## Main results

`Embedder.embedAll_accounts`: after any history of calls, a provider that fails in foreseen ways only
leaves one embedding for every text, in order, each with its origin; empty texts are not sent, and the
tally grows by the number of texts.

The invariant is `Embedder.Accounts`, kept by every step (`Embedder.Accounts.step`).
-/

namespace CodeAtlas

/-- How many texts were embedded in whatever way. -/
def EmbeddingTally.total (t : EmbeddingTally) : Nat :=
  t.remote + t.fallback + t.cacheHits

namespace Embedder

variable {τ σ : Type}

/-- One of these exchanges gave this vector for a normalized text. -/
def Given (log : List Exchange) (normalized : String) (vector : List Float) : Prop :=
  ∃ x ∈ log, x.Gave normalized vector

theorem Given.mono {log log' : List Exchange} {normalized : String} {vector : List Float}
    (more : log ⊆ log') (given : Given log normalized vector) : Given log' normalized vector :=
  given.imp fun _ one => ⟨more one.1, one.2⟩

/-- The entry was made of a vector that one of these exchanges gave for a text that was sent. -/
def Remembers (e : Embedder τ σ) (P : String → Prop) (log : List Exchange)
    (entry : Cache.Entry τ Embedding) : Prop :=
  ∃ normalized vector, P normalized ∧ entry.key = e.key normalized ∧
    entry.value = e.remote vector ∧ Given log normalized vector

theorem Remembers.mono {e : Embedder τ σ} {P : String → Prop} {log log' : List Exchange}
    {entry : Cache.Entry τ Embedding} (more : log ⊆ log') (remembers : e.Remembers P log entry) :
    e.Remembers P log' entry := by
  obtain ⟨normalized, vector, sent, atKey, value, given⟩ := remembers
  exact ⟨normalized, vector, sent, atKey, value, given.mono more⟩

/-- Without collisions among their digests, texts have different keys. -/
def Collisionless (e : Embedder τ σ) (texts : List String) : Prop :=
  Set.InjOn Digest.ofText {hashed | ∃ text ∈ texts, hashed = e.normalize text ++ e.model}

theorem collisionless_iff {e : Embedder τ σ} {texts : List String} :
    e.Collisionless texts ↔ ∀ text ∈ texts, ∀ text' ∈ texts,
      Digest.ofText (e.normalize text ++ e.model) = Digest.ofText (e.normalize text' ++ e.model) →
        e.normalize text ++ e.model = e.normalize text' ++ e.model := by
  constructor
  · exact fun apart text among text' among' => apart ⟨text, among, rfl⟩ ⟨text', among', rfl⟩
  · rintro apart _ ⟨text, among, rfl⟩ _ ⟨text', among', rfl⟩
    exact apart text among text' among'

instance (e : Embedder τ σ) (texts : List String) : Decidable (e.Collisionless texts) :=
  decidable_of_iff _ collisionless_iff.symm

theorem key_eq (e : Embedder τ σ) (normalized : String) :
    e.key normalized = Digest.ofText (normalized ++ e.model) := by
  simp only [key, Digest.ofParts, String.join, List.foldl_cons, List.foldl_nil, String.empty_append]

theorem Collisionless.eq_of_key {e : Embedder τ σ} {texts : List String}
    (collisionless : e.Collisionless texts) {n m : String} (one : n ∈ texts.map e.normalize)
    (other : m ∈ texts.map e.normalize) (same : e.key n = e.key m) : n = m := by
  obtain ⟨text, among, rfl⟩ := List.mem_map.mp one
  obtain ⟨text', among', rfl⟩ := List.mem_map.mp other
  rw [key_eq, key_eq] at same
  exact (String.append_left_inj _).mp
    (collisionless ⟨text, among, rfl⟩ ⟨text', among', rfl⟩ same)

section Time

set_option linter.unusedSectionVars false

variable [Add τ] [Sub τ] [LE τ] [DecidableLE τ] [LT τ] [DecidableLT τ] [OfNat τ 0] {now : τ}

/-- Where an embedding for a normalized text may come from, as long as keys are told apart only. -/
inductive Origin (start : Embedder τ σ) (now : τ) (P : String → Prop) (log : List Exchange)
    (normalized : String) : Embedding → Prop where
  | sent {other : String} {vector : List Float} (sent : P other)
      (atKey : start.key normalized = start.key other) (given : Given log other vector) :
      Origin start now P log normalized (start.remote vector)
  | kept {embedding : Embedding} (held : start.held? now normalized = some embedding) :
      Origin start now P log normalized embedding
  | stoodIn : Origin start now P log normalized (start.feature normalized)

theorem Origin.mono {start : Embedder τ σ} {P : String → Prop} {log log' : List Exchange}
    {normalized : String} {embedding : Embedding} (more : log ⊆ log')
    (origin : Origin start now P log normalized embedding) :
    Origin start now P log' normalized embedding := by
  cases origin with
  | sent sent atKey given => exact .sent sent atKey (given.mono more)
  | kept held => exact .kept held
  | stoodIn => exact .stoodIn

/-- What holds after some steps by which texts were served: only what satisfies `P` was sent, every
entry of the cache was there at the start or comes from the record, and so do the embeddings. -/
structure Accounts (P : String → Prop) (now : τ) (start e : Embedder τ (σ × List Exchange))
    (served : List (String × Embedding)) : Prop where
  kin : Kin start e
  grown : start.record ⊆ e.record
  asked : ∀ x ∈ e.record, x ∈ start.record ∨ ∀ normalized ∈ x.texts, P normalized
  distinct : e.cache.Distinct
  entries : ∀ entry ∈ e.cache.entries,
    entry ∈ start.cache.entries ∨ start.Remembers P e.record entry
  origins : ∀ s ∈ served, Origin start now P e.record s.1 s.2
  total : e.tally.total = start.tally.total + served.length

namespace Accounts

variable {P : String → Prop} {limit : Option Float} {provider : Option (Provider σ)}
variable {start e e' : Embedder τ (σ × List Exchange)} {done served : List (String × Embedding)}

theorem refl (distinct : start.cache.Distinct) : Accounts P now start start [] where
  kin := .refl start
  grown := List.Subset.refl _
  asked _ member := .inl member
  distinct
  entries _ member := .inl member
  origins := List.forall_mem_nil _
  total := rfl

theorem look (accounts : Accounts P now start e done) (normalized : String) :
    Accounts P now start (e.look now normalized) done :=
  { accounts with
    kin := accounts.kin.trans ⟨rfl, rfl, rfl, rfl⟩
    distinct := accounts.distinct.get now _
    entries := fun entry member => accounts.entries entry (Cache.mem_get member) }

theorem settle (accounts : Accounts P now start e done) :
    Accounts P now start (e.settle now) done :=
  { accounts with kin := accounts.kin.trans ⟨rfl, rfl, rfl, rfl⟩ }

theorem count (accounts : Accounts P now start e done) {s : String × Embedding}
    (origin : Origin start now P e.record s.1 s.2) {tally : EmbeddingTally}
    (more : tally.total = e.tally.total + 1) :
    Accounts P now start { e with tally } (done ++ [s]) :=
  { accounts with
    kin := accounts.kin.trans ⟨rfl, rfl, rfl, rfl⟩
    origins := by
      refine List.forall_mem_append.mpr ⟨accounts.origins, List.forall_mem_singleton.mpr origin⟩
    total := by
      rw [List.length_append, ← Nat.add_assoc, ← accounts.total]
      exact more }

theorem hit (accounts : Accounts P now start e done) (distinct : start.cache.Distinct)
    {normalized : String} {embedding : Embedding} (held : e.held? now normalized = some embedding) :
    Accounts P now start (e.look now normalized).countHit (done ++ [(normalized, embedding)]) := by
  refine (accounts.look normalized).count ?_ (by simp only [EmbeddingTally.total]; omega)
  obtain ⟨entry, present, atKey, lives, rfl⟩ := Cache.get_lives held
  rw [accounts.kin.key] at atKey
  obtain old | ⟨other, vector, sent, key, value, given⟩ := accounts.entries entry present
  -- Keys are distinct at the start, so an old entry is what a read at the start gives.
  · refine .kept ?_
    rw [held?, ← atKey]
    exact distinct.get_of_mem old lives
  · rw [value]
    exact .sent sent (atKey.symm.trans key) given

theorem fallBack (accounts : Accounts P now start e done) (normalized : String) :
    Accounts P now start (e.fallBack normalized).2
      (done ++ [(normalized, e.feature normalized)]) := by
  refine accounts.count ?_ (by simp only [EmbeddingTally.total]; omega)
  rw [feature, accounts.kin.config]
  exact .stoodIn

theorem call (accounts : Accounts P now start e done) (records : e.Records provider)
    {texts : List String} (sent : ∀ normalized ∈ texts, P normalized)
    {ending : Ending Failure (List (List Float))} (called : e.call now texts limit = (ending, e')) :
    Accounts P now start e' done := by
  obtain ⟨cache, tally⟩ := cache_call called
  have kin := accounts.kin.trans (kin_call called)
  -- The record grows by one exchange at most, and its texts were sent.
  have grown : e.record ⊆ e'.record ∧
      ∀ x ∈ e'.record, x ∈ e.record ∨ ∀ normalized ∈ x.texts, P normalized := by
    obtain ⟨same, -⟩ | ⟨ended, more, -⟩ := record_call records called
    · rw [same]
      exact ⟨List.Subset.refl _, fun x member => .inl member⟩
    · rw [more]
      refine ⟨List.subset_append_left _ _, fun x member => ?_⟩
      rcases List.mem_append.mp member with old | new
      · exact .inl old
      · rw [List.mem_singleton.mp new]
        exact .inr sent
  exact
    { kin
      grown := List.Subset.trans accounts.grown grown.1
      asked := fun x member => (grown.2 x member).elim (accounts.asked x) .inr
      distinct := cache ▸ accounts.distinct
      entries := fun entry member =>
        (accounts.entries entry (cache ▸ member)).imp_right (·.mono grown.1)
      origins := fun s member => (accounts.origins s member).mono grown.1
      total := tally ▸ accounts.total }

theorem keep (accounts : Accounts P now start e done) {normalized : String} {vector : List Float}
    (sent : P normalized) (given : Given e.record normalized vector) :
    Accounts P now start (e.keep now normalized vector).2
      (done ++ [(normalized, e.remote vector)]) := by
  have remote : e.remote vector = start.remote vector := by
    rw [Embedder.remote, Embedder.remote, accounts.kin.model]
  have kept : Accounts P now start
      { e with cache := e.cache.set now (e.key normalized) (e.remote vector) } done :=
    { accounts with
      kin := accounts.kin.trans ⟨rfl, rfl, rfl, rfl⟩
      distinct := accounts.distinct.set now _ _
      entries := fun entry member => by
        obtain old | ⟨atKey, value⟩ := Cache.mem_set member
        · exact accounts.entries entry old
        · refine .inr ⟨normalized, vector, sent, ?_, value.trans remote, given⟩
          rw [atKey, accounts.kin.key] }
  refine kept.count ?_ (by simp only [EmbeddingTally.total]; omega)
  rw [remote]
  exact .sent sent rfl given

theorem keepAll (accounts : Accounts P now start e done) {sent : List (String × List Float)}
    (given : ∀ s ∈ sent, P s.1 ∧ Given e.record s.1 s.2) :
    Accounts P now start (e.keepAll now sent).2
      (done ++ sent.map fun (normalized, vector) => (normalized, e.remote vector)) := by
  induction sent generalizing e done with
  | nil => rwa [List.map_nil, List.append_nil]
  | cons first rest ih =>
    obtain ⟨one, others⟩ := List.forall_mem_cons.mp given
    have later := ih (accounts.keep one.1 one.2) others
    rw [List.append_assoc] at later
    exact later

theorem step (distinct : start.cache.Distinct) (recorded : start.Records provider)
    (step : Step P now limit e served e') (accounts : Accounts P now start e done) :
    Accounts P now start e' (done ++ served) := by
  have records : e.Records provider := accounts.kin.provider.trans recorded
  cases step with
  | looked normalized => simpa using accounts.look normalized
  | hit held => exact accounts.hit distinct held
  | spared => exact accounts.fallBack _
  | settled => simpa using accounts.settle
  | withheld => exact accounts.fallBack _
  | @answered texts vectors e' sent called =>
    refine (accounts.call records sent called).keepAll fun s member => ?_
    refine ⟨sent s.1 (List.of_mem_zip member).1, ?_⟩
    obtain ⟨-, f, nothing, -⟩ | ⟨ended, more, heard⟩ := record_call records called
    · cases nothing
    · cases heard with
      | value right =>
        exact ⟨_, more ▸ List.mem_append_right _ List.mem_cons_self, vectors, rfl, right, member⟩
  | failed missing sent called =>
    exact (accounts.call records (List.forall_mem_singleton.mpr sent) called).fallBack _
  | split sent called => simpa using accounts.call records sent called

theorem steps (distinct : start.cache.Distinct) (recorded : start.Records provider)
    (steps : Steps P now limit start served e') : Accounts P now start e' served :=
  Steps.keeps (I := Accounts P now start) [] (.refl distinct) (step distinct recorded) steps

/-- However a task ends, there is an account of it, and with it of all texts that were embedded. -/
theorem perform (now : τ) (distinct : start.cache.Distinct) (recorded : start.Records provider)
    (task : EmbeddingTask)
    (sent : ∀ text ∈ task.texts, start.normalize text ≠ "" → P (start.normalize text)) :
    ∃ served, Accounts P now start (start.perform now task).2 served ∧
      ∀ found, (start.perform now task).1 = .value found → 0 < start.config.batchSize →
        ServesAll (task.texts.map start.normalize) found served := by
  obtain ⟨limit, ends⟩ := perform_ends start now task sent
  generalize start.perform now task = out at ends ⊢
  cases ends with
  | served taken right =>
    refine ⟨_, steps distinct recorded taken, fun found same => ?_⟩
    obtain rfl := Ending.value.inj same
    exact right
  | crashed taken sent called =>
    have before := steps distinct recorded taken
    exact ⟨_, before.call (taken.kin.provider.trans recorded) sent called, nofun⟩
  | abandoned taken sent called =>
    have before := steps distinct recorded taken
    exact ⟨_, before.call (taken.kin.provider.trans recorded) sent called, nofun⟩

end Accounts

/-! ### A history of calls -/

/-- Every entry of the cache comes from some exchanges. -/
structure Traced (P : String → Prop) (log : List Exchange) (e : Embedder τ σ) : Prop where
  distinct : e.cache.Distinct
  entries : ∀ entry ∈ e.cache.entries, e.Remembers P log entry

theorem Kin.remembers {P : String → Prop} {e e' : Embedder τ σ} (kin : Kin e e')
    {log : List Exchange} {entry : Cache.Entry τ Embedding} (remembers : e.Remembers P log entry) :
    e'.Remembers P log entry := by
  obtain ⟨normalized, vector, sent, atKey, value, given⟩ := remembers
  refine ⟨normalized, vector, sent, atKey.trans (kin.key normalized).symm, ?_, given⟩
  rw [value, remote, remote, kin.model]

theorem Kin.collisionless {e e' : Embedder τ σ} (kin : Kin e e') {texts : List String}
    (collisionless : e.Collisionless texts) : e'.Collisionless texts := by
  rwa [Collisionless, funext kin.normalize, kin.model]

section History

variable {P : String → Prop} {provider : Option (Provider σ)} {e : Embedder τ (σ × List Exchange)}

theorem Traced.perform (now : τ) (traced : Traced P e.record e) (records : e.Records provider)
    {task : EmbeddingTask}
    (sent : ∀ text ∈ task.texts, e.normalize text ≠ "" → P (e.normalize text)) :
    Traced P (e.perform now task).2.record (e.perform now task).2 := by
  obtain ⟨served, accounts, -⟩ := Accounts.perform now traced.distinct records task sent
  refine ⟨accounts.distinct, fun entry member => accounts.kin.remembers ?_⟩
  exact (accounts.entries entry member).elim
    (fun old => (traced.entries entry old).mono accounts.grown) id

theorem Traced.after (traced : Traced P e.record e) (records : e.Records provider)
    (calls : List (EmbeddingCall τ)) (sent : ∀ call ∈ calls, ∀ text ∈ call.task.texts,
      e.normalize text ≠ "" → P (e.normalize text)) :
    Traced P (e.after calls).record (e.after calls) := by
  refine after_keeps (I := fun e => Traced P e.record e) traced
    (fun e limit before => ⟨before.distinct, before.entries⟩) fun e' kin call member before => ?_
  refine before.perform call.now (kin.provider.trans records) fun text among => ?_
  rw [kin.normalize]
  exact sent call member text among

end History

/-- Where an embedding for a normalized text comes from. -/
inductive Accounted (e : Embedder τ σ) (now : τ) (earlier during : List Exchange)
    (normalized : String) : Embedding → Prop where
  /-- The provider gives the vector in this call. -/
  | sent {vector : List Float} (nonempty : normalized ≠ "")
      (given : Given during normalized vector) :
      Accounted e now earlier during normalized (e.remote vector)
  /-- The provider gave the vector before, and the cache still holds it. -/
  | kept {vector : List Float} (nonempty : normalized ≠ "")
      (given : Given earlier normalized vector)
      (held : e.held? now normalized = some (e.remote vector)) :
      Accounted e now earlier during normalized (e.remote vector)
  /-- The feature vector stands in. -/
  | stoodIn : Accounted e now earlier during normalized (e.feature normalized)

/-- The texts that may be sent for some texts. -/
def Sendable (e : Embedder τ σ) (texts : List String) (normalized : String) : Prop :=
  normalized ≠ "" ∧ normalized ∈ texts.map e.normalize

theorem sendable_of_mem {e : Embedder τ σ} {texts : List String} {text : String}
    (among : text ∈ texts) (nonempty : e.normalize text ≠ "") : e.Sendable texts (e.normalize text) :=
  ⟨nonempty, List.mem_map_of_mem among⟩

theorem Kin.sendable {e e' : Embedder τ σ} (kin : Kin e e') (texts : List String) :
    e'.Sendable texts = e.Sendable texts := by
  funext normalized
  rw [Sendable, Sendable, funext kin.normalize]

theorem Origin.accounted {e : Embedder τ σ} {texts : List String} {earlier during : List Exchange}
    (traced : Traced (e.Sendable texts) earlier e) (collisionless : e.Collisionless texts)
    {normalized : String} (one : normalized ∈ texts.map e.normalize) {embedding : Embedding}
    (origin : Origin e.recorded now (e.Sendable texts) during normalized embedding) :
    e.Accounted now earlier during normalized embedding := by
  cases origin with
  | sent sent atKey given =>
    obtain rfl := collisionless.eq_of_key one sent.2 atKey
    exact .sent sent.1 given
  | kept held =>
    -- The entry that was read is that of a text with the same key, which is this text.
    obtain ⟨entry, present, atKey, rfl⟩ := Cache.get_found held
    obtain ⟨other, vector, sent, key, value, given⟩ := traced.entries entry present
    obtain rfl := collisionless.eq_of_key one sent.2 (atKey.symm.trans key)
    rw [value] at held ⊢
    exact .kept sent.1 given held
  | stoodIn => exact .stoodIn

/-- From an embedder whose cache comes from some exchanges, texts get embeddings that come from these
or from the exchanges of the call. -/
theorem Traced.embedAll {e : Embedder τ σ} {involved : List String} {earlier : List Exchange}
    (traced : Traced (e.Sendable involved) earlier e) (patient : e.patience = none)
    (positive : 0 < e.config.batchSize)
    (foreseen : ∀ p, e.provider = some p → ∀ state texts f,
      (p.answer state texts).1 = .raised f → isForeseen f = true)
    (collisionless : e.Collisionless involved) {texts : List String} (within : texts ⊆ involved) :
    ∃ found e', e.embedAll now texts = (.value found, e') ∧
      List.Forall₂ (fun text embedding => e.Accounted now earlier
        (e.exchanges [{ now, task := .many texts }]) (e.normalize text) embedding) texts found ∧
      (∀ x ∈ e.exchanges [{ now, task := .many texts }], "" ∉ x.texts) ∧
      e'.tally.total = e.tally.total + texts.length := by
  have sent : ∀ text ∈ texts, e.normalize text ≠ "" → e.Sendable involved (e.normalize text) :=
    fun text among => sendable_of_mem (within among)
  obtain ⟨found, _, e', ran, -, -⟩ := (embedAll_ends now sent).isServed patient foreseen
  -- The same call with the record, and the account of it.
  have beside : e.embedAll now texts = (e.recorded.embedAll now texts).map id (plain e.provider) :=
    plain_embedAll (records_recorded e) texts
  obtain ⟨served, accounts, serves⟩ : ∃ served,
      Accounts (e.Sendable involved) now e.recorded (e.recorded.embedAll now texts).2 served ∧
        ∀ found, (e.recorded.embedAll now texts).1 = .value found → 0 < e.config.batchSize →
          ServesAll (texts.map e.normalize) found served :=
    Accounts.perform now traced.distinct (records_recorded e) (.many texts) sent
  rw [beside, Prod.map, Prod.mk.injEq] at ran
  obtain ⟨ended, rfl⟩ := ran
  obtain ⟨length, perm⟩ := serves found ended positive
  refine ⟨found, _, beside.trans (Prod.ext ended rfl), ?_, fun x member empty => ?_, ?_⟩
  · rw [← List.forall₂_map_left_iff, List.forall₂_iff_zip]
    refine ⟨length.symm, fun {normalized embedding} member => ?_⟩
    have origin := accounts.origins _ (perm.mem_iff.mpr member)
    exact origin.accounted traced collisionless
      (List.map_subset e.normalize within (List.of_mem_zip member).1)
  · exact ((accounts.asked x member).resolve_left List.not_mem_nil "" empty).1 rfl
  · have total := accounts.total
    rw [perm.length_eq, List.length_zip, length, Nat.min_self, List.length_map] at total
    exact total

/-- What the cache holds after some calls comes from their exchanges. -/
theorem traced_after {e : Embedder τ σ} (empty : e.cache.entries = [])
    {calls : List (EmbeddingCall τ)} {involved : List String}
    (within : calls.flatMap (·.task.texts) ⊆ involved) :
    Traced ((e.after calls).Sendable involved) (e.exchanges calls) (e.after calls) := by
  have start : Traced (e.Sendable involved) e.recorded.record e.recorded :=
    ⟨by simp [Cache.Distinct, recorded, empty], by simp [recorded, empty]⟩
  have past := start.after (records_recorded e) calls fun call member text among =>
    sendable_of_mem (within (List.mem_flatMap.mpr ⟨call, member, among⟩))
  have plain : e.after calls = (e.recorded.after calls).plain e.provider :=
    plain_after (records_recorded e) calls
  rw [(kin_after e calls).sendable, plain]
  exact ⟨past.distinct, past.entries⟩

/-- Texts are embedded in order, each by a vector that the provider gave for exactly this text, in
this call or in an earlier one that the cache remembers, or by its feature vector. Empty texts are
not sent, and every text is counted once. -/
theorem embedAll_accounts (duration : Float → τ) {config : EmbeddingConfig}
    (positive : 0 < config.batchSize) (settings : Settings) {provider : Option (Provider σ)}
    (foreseen : ∀ p, provider = some p → ∀ state texts f,
      (p.answer state texts).1 = .raised f → isForeseen f = true)
    (state : σ) (history : List (EmbeddingCall τ)) (now : τ) {texts : List String}
    (collisionless : (create duration config settings provider state).Collisionless
      (history.flatMap (·.task.texts) ++ texts)) :
    let fresh := create duration config settings provider state
    let e := fresh.after history
    let during := e.exchanges [{ now, task := .many texts }]
    ∃ found e', e.embedAll now texts = (.value found, e') ∧
      List.Forall₂ (fun text embedding =>
        e.Accounted now (fresh.exchanges history) during (e.normalize text) embedding) texts found ∧
      (∀ x ∈ during, "" ∉ x.texts) ∧
      e'.tally.total = e.tally.total + texts.length := by
  generalize made : create duration config settings provider state = fresh at collisionless
  have kin := kin_after fresh history
  have start : fresh.cache.entries = [] ∧ fresh.patience = none ∧ fresh.config = config ∧
      fresh.provider = provider := by
    rw [← made]
    exact ⟨rfl, rfl, rfl, rfl⟩
  obtain ⟨empty, patient, given, provided⟩ := start
  refine (traced_after empty (List.subset_append_left _ texts)).embedAll
    (patience_after patient history) ?_ ?_ (kin.collisionless collisionless)
    (List.subset_append_right _ _)
  · rwa [kin.config, given]
  · rwa [kin.provider, provided]

/-- A provider takes one text at a time: of two texts neither is found, their group fails, and each is
sent alone. -/
theorem embedAll_accounts_alone :
    let provider : Provider Unit := {
      model := "single"
      answer := fun s texts => (match texts with
        | [_] => .value [[1.0]]
        | _ => .raised (.plain .provider "too many texts"), s) }
    let fresh : Embedder Int Unit :=
      create (fun _ => 60) EngineConfig.standard.embeddings Settings.standard provider ()
    let history : List (EmbeddingCall Int) := [{ now := 0, task := .one "a  b" none }]
    let e := fresh.after history
    let texts := ["a b", "c", "d", " "]
    let during := e.exchanges [{ now := 1, task := .many texts }]
    during.map (·.texts) = [["c", "d"], ["c"], ["d"]] ∧
      ∃ found e', e.embedAll 1 texts = (.value found, e') ∧
        List.Forall₂ (fun text embedding => e.Accounted 1 (fresh.exchanges history) during
          (e.normalize text) embedding) texts found ∧
        (∀ x ∈ during, "" ∉ x.texts) ∧ e'.tally.total = e.tally.total + 4 := by
  intro provider fresh history e texts during
  have foreseen : ∀ p, some provider = some p → ∀ state texts f,
      (p.answer state texts).1 = .raised f → isForeseen f = true := by
    rintro _ ⟨⟩ state texts f raised
    simp only [provider] at raised
    split at raised <;> cases raised
    rfl
  have collisionless : fresh.Collisionless (history.flatMap (·.task.texts) ++ texts) := by
    decide +kernel
  exact ⟨by decide +kernel, embedAll_accounts (fun _ => 60)
    (show 0 < EngineConfig.standard.embeddings.batchSize by decide) Settings.standard foreseen ()
    history 1 collisionless⟩

end Time

end Embedder

end CodeAtlas
