import CodeAtlas.Proofs.Embedding.Step

/-!
# What embedding gives

Embedding some texts gives one embedding for each of them, or fails as a whole. The configuration
and the provider never change. Without a provider nothing fails, and every text gets its feature
vector.

## Main results

`Embedder.length_embedAll` and `Embedder.embedAll_offline`.
-/

namespace CodeAtlas

namespace Embedder

variable {τ σ : Type}

/-- No provider, and nothing from one. -/
structure Offline (e : Embedder τ σ) : Prop where
  provider : e.provider = none
  cache : e.cache.entries = []

theorem Offline.isLocal {e : Embedder τ σ} (offline : e.Offline) (normalized : String) :
    (e.provider.isNone || normalized.isEmpty) = true := by
  rw [offline.provider]
  rfl

/-- The same embedder after some work: without a provider it has nothing from one. -/
structure Work (e e' : Embedder τ σ) : Prop where
  kin : Kin e e'
  offline : e.Offline → e'.Offline

theorem Work.refl (e : Embedder τ σ) : Work e e :=
  ⟨.refl e, id⟩

section Time

set_option linter.unusedSectionVars false

variable [Add τ] [Sub τ] [LE τ] [DecidableLE τ] [LT τ] [DecidableLT τ] [OfNat τ 0] {now : τ}

/-! ### What never changes -/

theorem kin_embed (now : τ) (e : Embedder τ σ) (text : String) (limit : Option Float) :
    Kin e (e.embed now text limit).2 :=
  (embed_ends (P := fun _ => True) now limit fun _ => trivial).kin

theorem kin_embedEach (now : τ) (e : Embedder τ σ) (texts : List String) :
    Kin e (e.embedEach now texts).2 :=
  (embedEach_ends (P := fun _ => True) now fun _ _ _ => trivial).kin

theorem kin_embedGroup (now : τ) (e : Embedder τ σ) (group : List String) :
    Kin e (e.embedGroup now group).2 := by
  simp only [embedGroup]
  split
  next called => exact (kin_call called).trans (kin_keepAll _ _)
  next called =>
    split
    · exact (kin_call called).trans (kin_embedEach now _ _)
    · exact kin_call called
  next called => exact kin_call called
  next called => exact kin_call called

theorem kin_embedAll (now : τ) (e : Embedder τ σ) (texts : List String) :
    Kin e (e.embedAll now texts).2 :=
  (embedAll_ends (P := fun _ => True) now fun _ _ _ => trivial).kin

/-! ### One embedding for each text -/

/-- When texts are embedded, there is one embedding for each. -/
theorem length_embedAll {e e' : Embedder τ σ} (positive : 0 < e.config.batchSize)
    {texts : List String} {found : List Embedding}
    (ran : e.embedAll now texts = (.value found, e')) : found.length = texts.length := by
  have ends := embedAll_ends (P := fun _ => True) (e := e) now fun text (_ : text ∈ texts) _ => trivial
  rw [ran] at ends
  cases ends with
  | served steps right => rw [(right positive).1, List.length_map]

/-! ### Without a provider -/

theorem get_offline {e : Embedder τ σ} (offline : e.Offline) (key : String) :
    e.cache.get now key = (none, e.cache) := by
  simp only [Cache.get, Cache.entry?, offline.cache, List.find?_nil]

/-- Every text gets its feature vector at once. -/
theorem lookUpAll_offline {e : Embedder τ σ} (offline : e.Offline) (texts : List String) :
    (e.lookUpAll now texts).1 =
        texts.map (fun text => some (Feature.embedding text e.config.fallbackDimensions)) ∧
      (e.lookUpAll now texts).2.Offline := by
  induction texts generalizing e with
  | nil => exact ⟨rfl, offline⟩
  | cons normalized rest ih =>
    simp only [lookUpAll, get_offline offline, offline.isLocal, if_true, List.map_cons]
    have more := @ih (e.fallBack normalized).2 ⟨offline.provider, offline.cache⟩
    exact ⟨congrArg _ more.1, more.2⟩

private theorem unfilled_some {α : Type} (embedding : α → Embedding) (text : α → String) :
    ∀ xs : List α, unfilled (xs.map text) (xs.map fun x => some (embedding x)) = []
  | [] => rfl
  | _ :: rest => unfilled_some embedding text rest

private theorem fill_some {α : Type} (embedding : α → Embedding) :
    ∀ xs : List α, fill (xs.map fun x => some (embedding x)) [] = xs.map embedding
  | [] => rfl
  | x :: rest => congrArg (embedding x :: ·) (fill_some embedding rest)

/-- Without a provider texts are embedded by their feature vectors. -/
theorem embedAll_offline {e : Embedder τ σ} (offline : e.Offline) (texts : List String) :
    (e.embedAll now texts).1 = .value (texts.map fun text =>
        Feature.embedding (e.normalize text) e.config.fallbackDimensions) ∧
      (e.embedAll now texts).2.Offline := by
  obtain ⟨slots, after⟩ := @lookUpAll_offline τ σ _ _ _ _ _ _ _ now e offline (texts.map e.normalize)
  have nothing : unfilled (texts.map e.normalize)
      (e.lookUpAll now (texts.map e.normalize)).1 = [] := by
    rw [slots, List.map_map]
    exact unfilled_some _ _ texts
  simp only [embedAll, nothing, List.isEmpty_nil, if_true]
  refine ⟨?_, after⟩
  rw [slots, List.map_map]
  exact congrArg _ (fill_some _ texts)

theorem embed_offline {e : Embedder τ σ} (offline : e.Offline) (text : String)
    (limit : Option Float) : (e.embed now text limit).2.Offline := by
  simp only [embed, get_offline offline, offline.isLocal, if_true]
  exact ⟨offline.provider, offline.cache⟩

/-! ### With patience -/

theorem length_patiently {e : Embedder τ σ} (positive : 0 < e.config.batchSize) {seconds : Float}
    {texts : List String} {found : List Embedding}
    (ran : (e.patiently seconds (·.embedAll now texts)).1 = .value found) :
    found.length = texts.length :=
  length_embedAll (by exact positive) (Prod.ext ran rfl)

theorem patiently_offline {e : Embedder τ σ} (offline : e.Offline) (seconds : Float)
    (texts : List String) : (e.patiently seconds (·.embedAll now texts)).1 =
      .value (texts.map fun text =>
        Feature.embedding (e.normalize text) e.config.fallbackDimensions) :=
  (@embedAll_offline τ σ _ _ _ _ _ _ _ now { e with patience := some seconds }
    ⟨offline.provider, offline.cache⟩ texts).1

/-! ### Work -/

theorem work_embedAll (e : Embedder τ σ) (texts : List String) :
    Work e (e.embedAll now texts).2 :=
  ⟨kin_embedAll now e texts, fun offline => (embedAll_offline offline texts).2⟩

theorem work_embed (e : Embedder τ σ) (text : String) (limit : Option Float) :
    Work e (e.embed now text limit).2 :=
  ⟨kin_embed now e text limit, fun offline => embed_offline offline text limit⟩

/-- Patience changes nothing else. -/
theorem work_patiently {α : Type} (seconds : Float) {embedding : Embedder τ σ → α × Embedder τ σ}
    (work : ∀ e, Work e (embedding e).2) (e : Embedder τ σ) :
    Work e (e.patiently seconds embedding).2 := by
  have done := work { e with patience := some seconds }
  exact ⟨⟨done.kin.config, done.kin.provider, done.kin.model, done.kin.timeout⟩, fun offline =>
    have after := done.offline ⟨offline.provider, offline.cache⟩
    ⟨after.provider, after.cache⟩⟩

end Time

end Embedder

end CodeAtlas
