import CodeAtlas.Config.Basic
import CodeAtlas.Config.Settings
import Mathlib.Tactic.Common

/-!
# The configuration when nothing is said, and the bounds of every one that is read

## Main results

`EngineConfig.decode_nothing` reads an empty configuration, and `EngineConfig.valid` says that every
configuration that is read keeps the bounds of every section.
-/

namespace CodeAtlas

/-- The configuration that stands when nothing is said. -/
def EngineConfig.standard : EngineConfig where
  scanner := {
    excludeDirs := ScanConfig.defaultExcludeDirs
    includeExtensions := ScanConfig.defaultIncludeExtensions
    excludeGlobs := []
    ignoreFile := ".codectxignore"
    maxFileSize := 2000000 }
  analyzer := {}
  embeddings := {
    model := none, apiKey := none, baseUrl := none, timeoutSeconds := none
    maxTextChars := 8000, batchSize := 100, cacheTtlSeconds := 86400.0, cacheSize := 10000
    fallbackDimensions := 384, failureThreshold := 5, cooldownSeconds := 60.0 }
  indexing := { concurrency := 4, fileTimeoutSeconds := 120.0 }
  retrieval := {
    defaultMaxTokens := 8000, charsPerToken := 4, similarTopK := 10, minSimilarity := 0.0
    fallbackWeight := 1.0, maxRelatedFiles := 10, maxCandidatesPerSymbol := 3
    keyFunctionsPerDependency := 3, contentPreviewChars := 500, stepTimeoutSeconds := 10.0
    queryEmbeddingTimeoutRatio := 0.5, fileContextTtlSeconds := 300.0
    projectContextTtlSeconds := 1800.0, dependencyCacheTtlSeconds := 3600.0, focusBoost := 1.25 }

theorem EngineConfig.decode_nothing : EngineConfig.decode (.object []) = .ok standard :=
  rfl

/-- The settings that stand when nothing is said. -/
def Settings.standard : Settings where
  appName := "codectx-core"
  appEnv := "development"
  logLevel := "INFO"
  databasePath := ".codectx/index.sqlite3"
  embeddingApiKey := none
  embeddingBaseUrl := "https://api.openai.com/v1"
  embeddingModel := "text-embedding-3-small"
  embeddingTimeoutSeconds := 30.0
  logRedactionEnabled := true

theorem Settings.decode_nothing : Settings.decode (.object []) = .ok standard :=
  rfl

/-! ### Bounds -/

namespace Checked

variable {α β : Type}

theorem seq_ok {f : Checked (α → β)} {x : Checked α} {b : β} (read : (f <*> x) = .ok b) :
    ∃ g a, f = .ok g ∧ x = .ok a ∧ b = g a := by
  cases f with
  | bad issues => cases x <;> cases read
  | ok g =>
    cases x with
    | bad issues => cases read
    | ok a => exact ⟨g, a, rfl, rfl, (Checked.ok.inj read).symm⟩

theorem under_ok {step : Step} {x : Checked α} {a : α} (read : x.under step = .ok a) :
    x = .ok a := by
  cases x with
  | ok b => exact read
  | bad issues => cases read

end Checked

namespace Decode

/-- A field that is not there has its default, and any other was read. -/
theorem withDefault_ok {α : Type} {f : Fields} {name : String} {default a : α}
    {decode : Value → Checked α} (read : f.withDefault name default decode = .ok a) :
    a = default ∨ ∃ v, decode v = .ok a := by
  simp only [Fields.withDefault] at read
  split at read
  · exact .inr ⟨_, Checked.under_ok read⟩
  · exact .inl (Checked.ok.inj read).symm

/-- What holds of the default and of everything that is read holds of the field. -/
theorem withDefault_holds {α : Type} {P : α → Prop} {f : Fields} {name : String} {default a : α}
    {decode : Value → Checked α} (read : f.withDefault name default decode = .ok a)
    (standard : P default) (asked : ∀ {v}, decode v = .ok a → P a) : P a := by
  rcases withDefault_ok read with rfl | ⟨v, given⟩
  · exact standard
  · exact asked given

theorem satisfying_ok {α : Type} {holds : α → Bool} {fault : Fault} {x : Checked α} {a : α}
    (read : satisfying holds fault x = .ok a) : x = .ok a ∧ holds a = true := by
  cases x with
  | bad issues => cases read
  | ok b =>
    simp only [satisfying, Checked.andThen] at read
    split at read
    next within =>
      cases read
      exact ⟨rfl, within⟩
    · cases read

theorem le_natFrom {least n : Nat} {v : Value} (read : natFrom least v = .ok n) : least ≤ n := by
  simp only [natFrom] at read
  cases given : satisfying (fun n => decide ((least : Int) ≤ n)) .tooSmall (int v) with
  | bad issues =>
    rw [given] at read
    cases read
  | ok i =>
    have enough : (least : Int) ≤ i := of_decide_eq_true (satisfying_ok given).2
    rw [given] at read
    cases read
    omega

theorem le_realFrom {least x : Float} {v : Value} (read : realFrom least v = .ok x) : least ≤ x :=
  of_decide_eq_true (satisfying_ok read).2

theorem lt_realAbove {bound x : Float} {v : Value} (read : realAbove bound v = .ok x) : bound < x :=
  of_decide_eq_true (satisfying_ok read).2

theorem realBetween_bounds {least most x : Float} {v : Value}
    (read : realBetween least most v = .ok x) : least ≤ x ∧ x ≤ most := by
  obtain ⟨upper, above⟩ := satisfying_ok read
  exact ⟨of_decide_eq_true above, of_decide_eq_true (satisfying_ok upper).2⟩

theorem realWithin_bounds {low high x : Float} {v : Value}
    (read : realWithin low high v = .ok x) : low < x ∧ x < high := by
  obtain ⟨upper, above⟩ := satisfying_ok read
  exact ⟨of_decide_eq_true above, of_decide_eq_true (satisfying_ok upper).2⟩

section Fields

variable {f : Fields} {name : String}

theorem field_natFrom {least default n : Nat}
    (read : f.withDefault name default (natFrom least) = .ok n) (standard : least ≤ default) :
    least ≤ n :=
  withDefault_holds read standard le_natFrom

theorem field_realFrom {least default x : Float}
    (read : f.withDefault name default (realFrom least) = .ok x) (standard : least ≤ default) :
    least ≤ x :=
  withDefault_holds read standard le_realFrom

theorem field_realAbove {bound default x : Float}
    (read : f.withDefault name default (realAbove bound) = .ok x) (standard : bound < default) :
    bound < x :=
  withDefault_holds read standard lt_realAbove

theorem field_realBetween {least most default x : Float}
    (read : f.withDefault name default (realBetween least most) = .ok x)
    (standard : least ≤ default ∧ default ≤ most) : least ≤ x ∧ x ≤ most :=
  withDefault_holds (P := fun x => least ≤ x ∧ x ≤ most) read standard realBetween_bounds

theorem field_realWithin {low high default x : Float}
    (read : f.withDefault name default (realWithin low high) = .ok x)
    (standard : low < default ∧ default < high) : low < x ∧ x < high :=
  withDefault_holds (P := fun x => low < x ∧ x < high) read standard realWithin_bounds

end Fields

end Decode

/-- Every section was read, one that is left out from nothing. -/
theorem EngineConfig.sectionOf_ok {α : Type} {f : Decode.Fields} {name : String}
    {decode : Value → Checked α} {a : α} (read : sectionOf f name decode = .ok a) :
    ∃ v, decode v = .ok a := by
  simp only [sectionOf] at read
  split at read
  · exact ⟨_, Checked.under_ok read⟩
  · exact ⟨_, read⟩

/-- The bounds of a configured walk. -/
structure ScanConfig.Valid (c : ScanConfig) : Prop where
  maxFileSize : 1 ≤ c.maxFileSize

theorem ScanConfig.valid {v : Value} {c : ScanConfig} (read : ScanConfig.decode v = .ok c) :
    c.Valid := by
  cases v with
  | object entries =>
    -- Here, as in every section, the fields are read from the last one back.
    obtain ⟨_, _, read1, size, rfl⟩ := Checked.seq_ok read
    obtain ⟨_, _, read2, -, rfl⟩ := Checked.seq_ok read1
    obtain ⟨_, _, read3, -, rfl⟩ := Checked.seq_ok read2
    obtain ⟨_, _, read4, -, rfl⟩ := Checked.seq_ok read3
    obtain ⟨_, _, read5, -, rfl⟩ := Checked.seq_ok read4
    cases read5
    exact ⟨Decode.field_natFrom size (by decide)⟩
  | _ => cases read

/-- The bounds within which outlines are configured. -/
structure OutlineConfig.Valid (c : OutlineConfig) : Prop where
  designMinHits : 1 ≤ c.designMinHits
  securityMin : 1 ≤ c.securityMin
  performanceMin : 1 ≤ c.performanceMin
  diagnosticMin : 1 ≤ c.diagnosticMin
  fileChunkChars : 1 ≤ c.fileChunkChars
  maxChunkChars : 1 ≤ c.maxChunkChars

theorem OutlineConfig.valid {v : Value} {c : OutlineConfig} (read : OutlineConfig.decode v = .ok c) :
    c.Valid := by
  cases v with
  | object entries =>
    obtain ⟨_, _, read1, chunk, rfl⟩ := Checked.seq_ok read
    obtain ⟨_, _, read2, file, rfl⟩ := Checked.seq_ok read1
    obtain ⟨_, _, read3, diagnostic, rfl⟩ := Checked.seq_ok read2
    obtain ⟨_, _, read4, performance, rfl⟩ := Checked.seq_ok read3
    obtain ⟨_, _, read5, security, rfl⟩ := Checked.seq_ok read4
    obtain ⟨_, _, read6, design, rfl⟩ := Checked.seq_ok read5
    cases read6
    exact {
      designMinHits := Decode.field_natFrom design (by decide)
      securityMin := Decode.field_natFrom security (by decide)
      performanceMin := Decode.field_natFrom performance (by decide)
      diagnosticMin := Decode.field_natFrom diagnostic (by decide)
      fileChunkChars := Decode.field_natFrom file (by decide)
      maxChunkChars := Decode.field_natFrom chunk (by decide) }
  | _ => cases read

/-- The bounds within which the embedding of texts is configured. -/
structure EmbeddingConfig.Valid (c : EmbeddingConfig) : Prop where
  maxTextChars : 1 ≤ c.maxTextChars
  batchSize : 1 ≤ c.batchSize
  cacheTtlSeconds : 0 < c.cacheTtlSeconds
  cacheSize : 1 ≤ c.cacheSize
  fallbackDimensions : 256 ≤ c.fallbackDimensions
  failureThreshold : 1 ≤ c.failureThreshold
  cooldownSeconds : 0 ≤ c.cooldownSeconds

theorem EmbeddingConfig.valid {v : Value} {c : EmbeddingConfig}
    (read : EmbeddingConfig.decode v = .ok c) : c.Valid := by
  cases v with
  | object entries =>
    obtain ⟨_, _, read1, cooldown, rfl⟩ := Checked.seq_ok read
    obtain ⟨_, _, read2, threshold, rfl⟩ := Checked.seq_ok read1
    obtain ⟨_, _, read3, dimensions, rfl⟩ := Checked.seq_ok read2
    obtain ⟨_, _, read4, cache, rfl⟩ := Checked.seq_ok read3
    obtain ⟨_, _, read5, ttl, rfl⟩ := Checked.seq_ok read4
    obtain ⟨_, _, read6, batch, rfl⟩ := Checked.seq_ok read5
    obtain ⟨_, _, read7, chars, rfl⟩ := Checked.seq_ok read6
    obtain ⟨_, _, read8, -, rfl⟩ := Checked.seq_ok read7
    obtain ⟨_, _, read9, -, rfl⟩ := Checked.seq_ok read8
    obtain ⟨_, _, read10, -, rfl⟩ := Checked.seq_ok read9
    obtain ⟨_, _, read11, -, rfl⟩ := Checked.seq_ok read10
    cases read11
    exact {
      maxTextChars := Decode.field_natFrom chars (by decide)
      batchSize := Decode.field_natFrom batch (by decide)
      cacheTtlSeconds := Decode.field_realAbove ttl (by decide)
      cacheSize := Decode.field_natFrom cache (by decide)
      fallbackDimensions := Decode.field_natFrom dimensions (by decide)
      failureThreshold := Decode.field_natFrom threshold (by decide)
      cooldownSeconds := Decode.field_realFrom cooldown (by decide) }
  | _ => cases read

/-- The bounds within which indexing is configured. -/
structure IndexingConfig.Valid (c : IndexingConfig) : Prop where
  concurrency : 1 ≤ c.concurrency
  fileTimeoutSeconds : 0 < c.fileTimeoutSeconds

theorem IndexingConfig.valid {v : Value} {c : IndexingConfig}
    (read : IndexingConfig.decode v = .ok c) : c.Valid := by
  cases v with
  | object entries =>
    obtain ⟨_, _, read1, timeout, rfl⟩ := Checked.seq_ok read
    obtain ⟨_, _, read2, concurrency, rfl⟩ := Checked.seq_ok read1
    cases read2
    exact ⟨Decode.field_natFrom concurrency (by decide), Decode.field_realAbove timeout (by decide)⟩
  | _ => cases read

/-- The bounds within which retrieval is configured. -/
structure RetrievalConfig.Valid (c : RetrievalConfig) : Prop where
  defaultMaxTokens : 1 ≤ c.defaultMaxTokens
  charsPerToken : 1 ≤ c.charsPerToken
  similarTopK : 1 ≤ c.similarTopK
  minSimilarity : -1 ≤ c.minSimilarity ∧ c.minSimilarity ≤ 1
  fallbackWeight : 0 ≤ c.fallbackWeight ∧ c.fallbackWeight ≤ 1
  maxCandidatesPerSymbol : 1 ≤ c.maxCandidatesPerSymbol
  stepTimeoutSeconds : 0 < c.stepTimeoutSeconds
  queryEmbeddingTimeoutRatio : 0 < c.queryEmbeddingTimeoutRatio ∧ c.queryEmbeddingTimeoutRatio < 1
  fileContextTtlSeconds : 0 < c.fileContextTtlSeconds
  projectContextTtlSeconds : 0 < c.projectContextTtlSeconds
  dependencyCacheTtlSeconds : 0 < c.dependencyCacheTtlSeconds
  focusBoost : 1 ≤ c.focusBoost

theorem RetrievalConfig.valid {v : Value} {c : RetrievalConfig}
    (read : RetrievalConfig.decode v = .ok c) : c.Valid := by
  cases v with
  | object entries =>
    obtain ⟨_, _, read1, boost, rfl⟩ := Checked.seq_ok read
    obtain ⟨_, _, read2, dependency, rfl⟩ := Checked.seq_ok read1
    obtain ⟨_, _, read3, project, rfl⟩ := Checked.seq_ok read2
    obtain ⟨_, _, read4, file, rfl⟩ := Checked.seq_ok read3
    obtain ⟨_, _, read5, ratio, rfl⟩ := Checked.seq_ok read4
    obtain ⟨_, _, read6, step, rfl⟩ := Checked.seq_ok read5
    obtain ⟨_, _, read7, -, rfl⟩ := Checked.seq_ok read6
    obtain ⟨_, _, read8, -, rfl⟩ := Checked.seq_ok read7
    obtain ⟨_, _, read9, candidates, rfl⟩ := Checked.seq_ok read8
    obtain ⟨_, _, read10, -, rfl⟩ := Checked.seq_ok read9
    obtain ⟨_, _, read11, weight, rfl⟩ := Checked.seq_ok read10
    obtain ⟨_, _, read12, similarity, rfl⟩ := Checked.seq_ok read11
    obtain ⟨_, _, read13, top, rfl⟩ := Checked.seq_ok read12
    obtain ⟨_, _, read14, chars, rfl⟩ := Checked.seq_ok read13
    obtain ⟨_, _, read15, tokens, rfl⟩ := Checked.seq_ok read14
    cases read15
    exact {
      defaultMaxTokens := Decode.field_natFrom tokens (by decide)
      charsPerToken := Decode.field_natFrom chars (by decide)
      similarTopK := Decode.field_natFrom top (by decide)
      minSimilarity := Decode.field_realBetween similarity (by decide)
      fallbackWeight := Decode.field_realBetween weight (by decide)
      maxCandidatesPerSymbol := Decode.field_natFrom candidates (by decide)
      stepTimeoutSeconds := Decode.field_realAbove step (by decide)
      queryEmbeddingTimeoutRatio := Decode.field_realWithin ratio (by decide)
      fileContextTtlSeconds := Decode.field_realAbove file (by decide)
      projectContextTtlSeconds := Decode.field_realAbove project (by decide)
      dependencyCacheTtlSeconds := Decode.field_realAbove dependency (by decide)
      focusBoost := Decode.field_realFrom boost (by decide) }
  | _ => cases read

/-- The bounds of a configuration, section by section. -/
structure EngineConfig.Valid (c : EngineConfig) : Prop where
  scanner : c.scanner.Valid
  analyzer : c.analyzer.Valid
  embeddings : c.embeddings.Valid
  indexing : c.indexing.Valid
  retrieval : c.retrieval.Valid

/-- Every configuration that is read keeps the bounds. -/
theorem EngineConfig.valid {v : Value} {c : EngineConfig} (read : EngineConfig.decode v = .ok c) :
    c.Valid := by
  cases v with
  | object entries =>
    obtain ⟨_, _, read1, retrieval, rfl⟩ := Checked.seq_ok read
    obtain ⟨_, _, read2, indexing, rfl⟩ := Checked.seq_ok read1
    obtain ⟨_, _, read3, embeddings, rfl⟩ := Checked.seq_ok read2
    obtain ⟨_, _, read4, analyzer, rfl⟩ := Checked.seq_ok read3
    obtain ⟨_, _, read5, scanner, rfl⟩ := Checked.seq_ok read4
    cases read5
    obtain ⟨_, retrieval⟩ := sectionOf_ok retrieval
    obtain ⟨_, indexing⟩ := sectionOf_ok indexing
    obtain ⟨_, embeddings⟩ := sectionOf_ok embeddings
    obtain ⟨_, analyzer⟩ := sectionOf_ok analyzer
    obtain ⟨_, scanner⟩ := sectionOf_ok scanner
    exact ⟨ScanConfig.valid scanner, OutlineConfig.valid analyzer, EmbeddingConfig.valid embeddings,
      IndexingConfig.valid indexing, RetrievalConfig.valid retrieval⟩
  | _ => cases read

/-- The bounds that a retrieval rests on. -/
structure RetrievalConfig.Bounded (c : RetrievalConfig) : Prop where
  charsPerToken : 0 < c.charsPerToken
  weighsLittle : 0 ≤ c.fallbackWeight ∧ c.fallbackWeight ≤ 1
  boosts : 1 ≤ c.focusBoost

theorem EngineConfig.bounded {v : Value} {c : EngineConfig} (read : EngineConfig.decode v = .ok c) :
    c.retrieval.Bounded :=
  have valid := (EngineConfig.valid read).retrieval
  ⟨valid.charsPerToken, valid.fallbackWeight, valid.focusBoost⟩

/-- Texts are sent in groups of at least one. -/
theorem EngineConfig.batchSize_pos {v : Value} {c : EngineConfig}
    (read : EngineConfig.decode v = .ok c) : 0 < c.embeddings.batchSize :=
  (EngineConfig.valid read).embeddings.batchSize

end CodeAtlas
