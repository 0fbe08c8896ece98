import CodeAtlas.Cache
import CodeAtlas.Circuit
import CodeAtlas.Config.Basic
import CodeAtlas.Config.Settings
import CodeAtlas.Deadline
import CodeAtlas.Embedding.Feature

/-!
Embedding texts: the provider first, the feature vector when it fails. Provider vectors are cached
under the text and the model; calls have a deadline and are guarded by a circuit. A group that fails
is sent again text by text. Time is an input, and the provider is a machine with a state of its own.
-/

namespace CodeAtlas

/-- A source of vectors, as a machine with states `σ`. -/
structure Provider (σ : Type) where
  model : String
  /-- How a call for some texts ends, and the state after it. -/
  answer : σ → List String → Ending Failure (List (List Float)) × σ

/-- How many texts were embedded in which way. -/
structure EmbeddingTally where
  remote : Nat := 0
  fallback : Nat := 0
  cacheHits : Nat := 0
  deriving DecidableEq

/-- An embedder; `τ` is time and `σ` the state of the provider. -/
structure Embedder (τ σ : Type) where
  config : EmbeddingConfig
  model : String
  /-- No provider call may take longer. -/
  timeout : Float
  provider : Option (Provider σ)
  state : σ
  cache : Cache τ Embedding
  circuit : Circuit τ
  tally : EmbeddingTally := {}
  /-- How long the operation that embeds may still wait; for ever when `none`. -/
  patience : Option Float := none

namespace Embedder

variable {τ σ : Type}

/-- The first text that is there and not empty. -/
def firstGiven (given : Option String) (default : String) : String :=
  match given with
  | some s => if s.isEmpty then default else s
  | none => default

/-- The model when no provider says one. -/
def modelOf (config : EmbeddingConfig) (settings : Settings) : String :=
  firstGiven config.model settings.embeddingModel

/-- The deadline of a call; no deadline or a deadline of zero leaves it to the settings. -/
def timeoutOf (config : EmbeddingConfig) (settings : Settings) : Float :=
  match config.timeoutSeconds with
  | some x => if x == 0 then settings.embeddingTimeoutSeconds else x
  | none => settings.embeddingTimeoutSeconds

/-- The key for a remote service, when one is given. -/
def apiKeyOf (config : EmbeddingConfig) (settings : Settings) : Option String :=
  let key := firstGiven config.apiKey (settings.embeddingApiKey.getD "")
  if key.isEmpty then none else some key

/-- An embedder that has embedded nothing; `duration` takes seconds to lengths of time. -/
def create (duration : Float → τ) (config : EmbeddingConfig) (settings : Settings)
    (provider : Option (Provider σ)) (state : σ) : Embedder τ σ :=
  { config
    model := (provider.map (·.model)).getD (modelOf config settings)
    timeout := timeoutOf config settings
    provider
    state
    cache := .empty config.cacheSize (duration config.cacheTtlSeconds)
    circuit := .fresh ⟨.whole config.failureThreshold, 1, duration config.cooldownSeconds⟩ }

/-- The form in which a text is sent. -/
def normalize (e : Embedder τ σ) (text : String) : String :=
  Feature.normalize e.config.maxTextChars text

/-- The key of a normalized text in the cache. -/
def key (e : Embedder τ σ) (normalized : String) : String :=
  Digest.ofParts [normalized, e.model]

/-- Embeds a normalized text without the provider. -/
def fallBack (e : Embedder τ σ) (normalized : String) : Embedding × Embedder τ σ :=
  (Feature.embedding normalized e.config.fallbackDimensions,
    { e with tally := { e.tally with fallback := e.tally.fallback + 1 } })

/-- One text was found in the cache. -/
def countHit (e : Embedder τ σ) : Embedder τ σ :=
  { e with tally := { e.tally with cacheHits := e.tally.cacheHits + 1 } }

/-- A failure after which the feature vector stands in. -/
def isForeseen (f : Failure) : Bool :=
  match f.kind with
  | .provider | .timeout | .retrievalTimeout | .refused => true
  | _ => false

/-- The provider sent more or fewer vectors than asked for. -/
def wrongCount (expected received : Nat) : Failure :=
  ⟨.provider, "Provider returned wrong number of vectors",
    [("expected", .nat expected), ("received", .nat received)]⟩

/-- A provider call passed its deadline. -/
def overdue (deadline : Float) : Failure :=
  .overdue .timeout "embedding_provider" (.real deadline)

/-- The deadline of a call; a limit of its own may only tighten it. -/
def deadline (e : Embedder τ σ) (limit : Option Float) : Float :=
  match limit with
  | none => e.timeout
  | some l => if l < e.timeout then l else e.timeout

/-- Embeds for an operation that waits no longer than `seconds`. -/
def patiently (seconds : Float) (embedding : Embedder τ σ → α × Embedder τ σ) (e : Embedder τ σ) :
    α × Embedder τ σ :=
  let (a, e) := embedding { e with patience := some seconds }
  (a, { e with patience := none })

section Time

variable [Add τ] [Sub τ] [LE τ] [DecidableLE τ] [LT τ] [DecidableLT τ] [OfNat τ 0]

/-- A call that the circuit let through failed. -/
def callFailed (e : Embedder τ σ) (now : τ) (f : Failure) :
    Ending Failure (List (List Float)) × Embedder τ σ :=
  (.raised f, { e with circuit := e.circuit.fail now })

/-- A provider that does not answer is given up at the deadline, unless the whole operation is given
up by then. -/
def giveUp (e : Embedder τ σ) (now : τ) (deadline : Float) :
    Ending Failure (List (List Float)) × Embedder τ σ :=
  match e.patience with
  | none => e.callFailed now (overdue deadline)
  | some p =>
    if p ≤ deadline then (.never, { e with patience := some 0 })
    else { e with patience := some (p - deadline) }.callFailed now (overdue deadline)

/-- Asks the provider for the vectors of normalized texts. -/
def call (e : Embedder τ σ) (now : τ) (texts : List String) (limit : Option Float) :
    Ending Failure (List (List Float)) × Embedder τ σ :=
  match e.circuit.enter now with
  | (some _, circuit) =>
    (.raised (.plain .refused "Circuit 'embedding_provider' is open"), { e with circuit })
  | (none, circuit) =>
    let e := { e with circuit }
    let deadline := e.deadline limit
    match e.provider with
    | none => e.callFailed now (.plain .provider "no provider")
    | some provider =>
      if deadline ≤ 0 then e.callFailed now (overdue deadline)
      else
        let (ending, state) := provider.answer e.state texts
        let e := { e with state }
        match ending with
        | .value vectors =>
          let e := { e with circuit := e.circuit.succeed }
          if vectors.length == texts.length then (.value vectors, e)
          else (.raised (wrongCount texts.length vectors.length), e)
        | .raised f => e.callFailed now f
        | .timedOut => e.callFailed now (overdue deadline)
        | .never => e.giveUp now deadline

/-- Keeps a vector that the provider sent for a normalized text. -/
def keep (e : Embedder τ σ) (now : τ) (normalized : String) (vector : List Float) :
    Embedding × Embedder τ σ :=
  let embedding : Embedding := ⟨.remote, vector, e.model⟩
  (embedding,
    { e with
      cache := e.cache.set now (e.key normalized) embedding
      tally := { e.tally with remote := e.tally.remote + 1 } })

/-- Embeds one text. -/
def embed (e : Embedder τ σ) (now : τ) (text : String) (limit : Option Float) :
    Ending Failure Embedding × Embedder τ σ :=
  let normalized := e.normalize text
  let (cached, cache) := e.cache.get now (e.key normalized)
  let e := { e with cache }
  match cached with
  | some embedding => (.value embedding, e.countHit)
  | none =>
    if e.provider.isNone || normalized.isEmpty then
      let (embedding, e) := e.fallBack normalized
      (.value embedding, e)
    else match e.call now [normalized] limit with
      | (.value vectors, e) =>
        let (embedding, e) := e.keep now normalized (vectors.head?.getD [])
        (.value embedding, e)
      | (.raised f, e) =>
        if isForeseen f then
          let (embedding, e) := e.fallBack normalized
          (.value embedding, e)
        else (.raised f, e)
      | (.timedOut, e) => (.timedOut, e)
      | (.never, e) => (.never, e)

/-- Looks up normalized texts: what the cache or the feature vector gives, and `none` for those that
have to be sent. -/
def lookUpAll (e : Embedder τ σ) (now : τ) :
    List String → List (Option Embedding) × Embedder τ σ
  | [] => ([], e)
  | normalized :: rest =>
    let (cached, cache) := e.cache.get now (e.key normalized)
    let e := { e with cache }
    let (slot, e) := match cached with
      | some embedding => (some embedding, e.countHit)
      | none =>
        if e.provider.isNone || normalized.isEmpty then
          let (embedding, e) := e.fallBack normalized
          (some embedding, e)
        else (none, e)
    let (slots, e) := lookUpAll e now rest
    (slot :: slots, e)

/-- Embeds normalized texts without the provider. -/
def fallBackAll (e : Embedder τ σ) : List String → List Embedding × Embedder τ σ
  | [] => ([], e)
  | normalized :: rest =>
    let (embedding, e) := e.fallBack normalized
    let (embeddings, e) := fallBackAll e rest
    (embedding :: embeddings, e)

/-- Keeps the vectors that the provider sent for normalized texts. -/
def keepAll (e : Embedder τ σ) (now : τ) :
    List (String × List Float) → List Embedding × Embedder τ σ
  | [] => ([], e)
  | (normalized, vector) :: rest =>
    let (embedding, e) := e.keep now normalized vector
    let (embeddings, e) := keepAll e now rest
    (embedding :: embeddings, e)

/-- Embeds texts one by one. -/
def embedEach (e : Embedder τ σ) (now : τ) :
    List String → Ending Failure (List Embedding) × Embedder τ σ
  | [] => (.value [], e)
  | text :: rest =>
    match e.embed now text none with
    | (.value embedding, e) =>
      match embedEach e now rest with
      | (.value embeddings, e) => (.value (embedding :: embeddings), e)
      | failed => failed
    | (.raised f, e) => (.raised f, e)
    | (.timedOut, e) => (.timedOut, e)
    | (.never, e) => (.never, e)

/-- Embeds a group of normalized texts: all at once, or one by one when that fails. -/
def embedGroup (e : Embedder τ σ) (now : τ) (group : List String) :
    Ending Failure (List Embedding) × Embedder τ σ :=
  match e.call now group none with
  | (.value vectors, e) =>
    let (embeddings, e) := e.keepAll now (group.zip vectors)
    (.value embeddings, e)
  | (.raised f, e) => if isForeseen f then e.embedEach now group else (.raised f, e)
  | (.timedOut, e) => (.timedOut, e)
  | (.never, e) => (.never, e)

/-- Embeds groups of normalized texts. -/
def embedGroups (e : Embedder τ σ) (now : τ) :
    List (List String) → Ending Failure (List Embedding) × Embedder τ σ
  | [] => (.value [], e)
  | group :: rest =>
    match e.embedGroup now group with
    | (.value embeddings, e) =>
      match embedGroups e now rest with
      | (.value more, e) => (.value (embeddings ++ more), e)
      | failed => failed
    | failed => failed

/-- The texts that have no embedding yet. -/
def unfilled : List String → List (Option Embedding) → List String
  | text :: texts, none :: slots => text :: unfilled texts slots
  | _ :: texts, some _ :: slots => unfilled texts slots
  | _, _ => []

/-- Puts embeddings into the empty slots, in order. -/
def fill : List (Option Embedding) → List Embedding → List Embedding
  | [], _ => []
  | some embedding :: slots, found => embedding :: fill slots found
  | none :: slots, embedding :: found => embedding :: fill slots found
  | none :: slots, [] => fill slots []

/-- Embeds texts, in order. -/
def embedAll (e : Embedder τ σ) (now : τ) (texts : List String) :
    Ending Failure (List Embedding) × Embedder τ σ :=
  let normalized := texts.map e.normalize
  let (slots, e) := e.lookUpAll now normalized
  let pending := unfilled normalized slots
  if pending.isEmpty then (.value (fill slots []), e)
  else
    let e := { e with circuit := e.circuit.settled now }
    if e.circuit.isOpen then
      let (found, e) := e.fallBackAll pending
      (.value (fill slots found), e)
    else match e.embedGroups now (Slice.groups e.config.batchSize pending) with
      | (.value found, e) => (.value (fill slots found), e)
      | failed => failed

end Time

end Embedder

end CodeAtlas
