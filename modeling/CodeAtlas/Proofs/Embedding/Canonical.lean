import CodeAtlas.Proofs.Embedding.Embedder
import CodeAtlas.Proofs.Embedding.Retry

/-!
# One normal form, one key

Texts that differ only in how long their runs of blanks are and of which blanks they are made have
the same normal form, and the normal form of a normal form is itself. A group that fails is sent
again text by text, which normalizes texts that are normalized: each of them is looked up, sent and
kept as it was in the group.

## Main results

`Embedder.normalize_canonical`: what the normal form is like, which texts share it, and what a text
of a failed group is sent as.

## Proof strategy

Collapsing blanks comes to the same for two texts of the same words (`Respaced.go_eq`). What is sent
text by text is described by `embedUnder`, which takes a key and a text as they are.
-/

namespace CodeAtlas

open Text

namespace Feature

/-! ## Blanks of a normal form -/

/-- Every blank is a space between two other characters. -/
def Spaced (text : List Char) : Prop :=
  ∀ before c after, text = before ++ c :: after → isBlank c = true →
    c = ' ' ∧ (∃ d, before.getLast? = some d ∧ isBlank d = false) ∧
      ∃ d, after.head? = some d ∧ isBlank d = false

theorem Normal.spaced {maxChars : Nat} {text : List Char} (normal : Normal maxChars text) :
    Spaced text := by
  rintro before c after rfl blank
  obtain ⟨-, chain, meets⟩ := List.isChain_append.mp normal.collapsed.apart
  refine ⟨normal.collapsed.spaces c (by simp) blank, ?_, ?_⟩
  · rcases List.eq_nil_or_concat before with rfl | ⟨front, d, rfl⟩
    · have plain := normal.starts c (by simp)
      rw [blank] at plain
      cases plain
    · refine ⟨d, by simp, ?_⟩
      simpa [blank] using meets d (by simp) c (by simp)
  · cases after with
    | nil =>
      have plain := normal.ends c (by simp)
      rw [blank] at plain
      cases plain
    | cons d rest =>
      refine ⟨d, rfl, ?_⟩
      simpa [blank] using (List.isChain_cons.mp chain).1 d rfl

/-! ## Texts that share a normal form -/

/-- The texts differ only in the length and kind of their runs of blanks. -/
inductive Respaced : List Char → List Char → Prop where
  | nil : Respaced [] []
  | char (c : Char) {text text' : List Char} (rest : Respaced text text') :
      Respaced (c :: text) (c :: text')
  | gap {gap gap' text text' : List Char} (blank : isBlankText gap = true)
      (blank' : isBlankText gap' = true) (filled : gap ≠ []) (filled' : gap' ≠ [])
      (rest : Respaced text text') : Respaced (gap ++ text) (gap' ++ text')

theorem go_gap {gap : List Char} (blank : isBlankText gap = true) (text : List Char) :
    collapse.go true (gap ++ text) = collapse.go true text := by
  induction gap with
  | nil => rfl
  | cons c gap ih =>
    rw [isBlankText, List.all_cons, Bool.and_eq_true] at blank
    simp only [List.cons_append, collapse.go, blank.1, if_true]
    exact ih blank.2

/-- A run of blanks becomes a space, or nothing when a blank stands before it. -/
theorem go_gap_append {gap : List Char} (blank : isBlankText gap = true) (filled : gap ≠ [])
    (inRun : Bool) (text : List Char) : collapse.go inRun (gap ++ text) =
      (if inRun then [] else [' ']) ++ collapse.go true text := by
  obtain ⟨c, gap, rfl⟩ := List.exists_cons_of_ne_nil filled
  rw [isBlankText, List.all_cons, Bool.and_eq_true] at blank
  simp only [List.cons_append, collapse.go, blank.1, if_true, go_gap blank.2]
  cases inRun <;> rfl

theorem Respaced.go_eq {text text' : List Char} (same : Respaced text text') (inRun : Bool) :
    collapse.go inRun text = collapse.go inRun text' := by
  induction same generalizing inRun with
  | nil => rfl
  | char c rest ih => simp only [collapse.go, ih]
  | gap blank blank' filled filled' rest ih =>
    rw [go_gap_append blank filled, go_gap_append blank' filled', ih]

theorem Respaced.normalize_eq {text text' : String} (same : Respaced text.toList text'.toList)
    (maxChars : Int) : normalize maxChars text = normalize maxChars text' := by
  have collapsed : collapse text.toList = collapse text'.toList := same.go_eq false
  rw [normalize, normalize, collapsed]

end Feature

namespace Embedder

/-! ## What is sent text by text -/

section Time

variable {τ σ : Type} [Add τ] [Sub τ] [LE τ] [DecidableLE τ] [LT τ] [DecidableLT τ] [OfNat τ 0]

/-- Embeds a text as it is, under a key of the cache. -/
def embedUnder (e : Embedder τ σ) (now : τ) (key text : String) :
    Ending Failure Embedding × Embedder τ σ :=
  let (cached, cache) := e.cache.get now key
  let e := { e with cache }
  match cached with
  | some embedding => (.value embedding, e.countHit)
  | none =>
    if e.provider.isNone || text.isEmpty then (.value (e.feature text), (e.fallBack text).2)
    else match e.call now [text] none with
      | (.value vectors, e) =>
        let embedding := e.remote (vectors.head?.getD [])
        (.value embedding,
          { e with
            cache := e.cache.set now key embedding
            tally := { e.tally with remote := e.tally.remote + 1 } })
      | (.raised f, e) =>
        if isForeseen f then (.value (e.feature text), (e.fallBack text).2) else (.raised f, e)
      | (.timedOut, e) => (.timedOut, e)
      | (.never, e) => (.never, e)

/-- Embeds texts one by one, each under its key. -/
def embedEachUnder (e : Embedder τ σ) (now : τ) :
    List (String × String) → Ending Failure (List Embedding) × Embedder τ σ
  | [] => (.value [], e)
  | (key, text) :: rest =>
    match e.embedUnder now key text with
    | (.value embedding, e) =>
      match embedEachUnder e now rest with
      | (.value embeddings, e) => (.value (embedding :: embeddings), e)
      | failed => failed
    | (.raised f, e) => (.raised f, e)
    | (.timedOut, e) => (.timedOut, e)
    | (.never, e) => (.never, e)

variable {now : τ}

theorem embed_eq_embedUnder (e : Embedder τ σ) (text : String) :
    e.embed now text none = e.embedUnder now (e.key (e.normalize text)) (e.normalize text) := by
  generalize same : e.normalize text = normalized
  cases found : (e.cache.get now (e.key normalized)).1 with
  | some embedding =>
    rw [embed_held (same ▸ found), same]
    simp only [embedUnder, found]
    rfl
  | none =>
    by_cases stays : (e.provider.isNone || normalized.isEmpty) = true
    · rw [embed_spared (same ▸ found) (same ▸ stays), same]
      simp only [embedUnder, found, stays, if_true]
      rfl
    · rw [embed_sent (same ▸ found) (same ▸ stays), same]
      simp only [embedUnder, found, if_neg stays]
      split
      next called =>
        -- The call leaves the model as it is, and so the key.
        simp only [look, conclude, keep, called, (kin_call called).key]
        rfl
      all_goals
        next called =>
          simp only [look]
          rw [called]
          rfl

/-- Texts that are normalized are embedded one by one as they are. -/
theorem embedEach_eq_embedEachUnder {e e₀ : Embedder τ σ} (kin : Kin e₀ e) {group : List String}
    (normal : ∀ text ∈ group, e₀.normalize text = text) :
    e.embedEach now group = e.embedEachUnder now (group.map fun text => (e₀.key text, text)) := by
  induction group generalizing e with
  | nil => rfl
  | cons text rest ih =>
    obtain ⟨this, others⟩ := List.forall_mem_cons.mp normal
    have one : e.embed now text none = e.embedUnder now (e₀.key text) text := by
      rw [embed_eq_embedUnder, kin.normalize, this, kin.key]
    have after := kin_embed now e text none
    rw [List.map_cons, embedEach, embedEachUnder, ← one]
    generalize e.embed now text none = ended at after
    obtain ⟨ending, e'⟩ := ended
    cases ending with
    | value embedding =>
      let prepend : Ending Failure (List Embedding) × Embedder τ σ →
          Ending Failure (List Embedding) × Embedder τ σ
        | (.value embeddings, e) => (.value (embedding :: embeddings), e)
        | failed => failed
      exact congrArg prepend (ih (kin.trans after) others)
    | raised | timedOut | never => rfl

/-- The normal form of a text has no more characters than may be, no blank at either end, and every
blank in it is a space between two other characters. It is its own normal form, and it is shared by
the texts that differ only in their runs of blanks. So when a group of normalized texts fails, each
of them is sent again under its key in the group and as it was sent in the group. -/
theorem normalize_canonical :
    (∀ (maxChars : Nat) (text : String),
      (Feature.normalize maxChars text).length ≤ maxChars ∧
      Feature.StartsPlain (Feature.normalize maxChars text).toList ∧
      Feature.EndsPlain (Feature.normalize maxChars text).toList ∧
      Feature.Spaced (Feature.normalize maxChars text).toList ∧
      Feature.normalize maxChars (Feature.normalize maxChars text) =
        Feature.normalize maxChars text ∧
      ∀ text' : String, Feature.Respaced text.toList text'.toList →
        Feature.normalize maxChars text = Feature.normalize maxChars text') ∧
    ∀ (e e₁ : Embedder τ σ) (now : τ) (texts : List String) (f : Failure),
      e.call now (texts.map e.normalize) none = (.raised f, e₁) → isForeseen f = true →
        e.embedGroup now (texts.map e.normalize) =
          e₁.embedEachUnder now ((texts.map e.normalize).map fun text => (e.key text, text)) := by
  constructor
  · intro maxChars text
    have normal := Feature.normal_normalize maxChars text
    refine ⟨?_, normal.starts, normal.ends, normal.spaced,
      Feature.normalize_normalize maxChars text, fun text' same => same.normalize_eq maxChars⟩
    rw [← String.length_toList]
    exact normal.short
  · intro e e₁ now texts f called foreseen
    have normal : ∀ text ∈ texts.map e.normalize, e.normalize text = text :=
      List.forall_mem_map.mpr fun text _ => Feature.normalize_normalize _ text
    simp only [embedGroup, called, foreseen, if_true]
    exact embedEach_eq_embedEachUnder (kin_call called) normal

/-- Two texts that the provider does not take at once. -/
theorem normalize_canonical_retried :
    let e : Embedder Int Unit := create (fun _ => 60) EngineConfig.standard.embeddings
      Settings.standard (some single) ()
    Feature.normalize 3 "a\t\n b  c" = Feature.normalize 3 "a b c" ∧
      ["a\tb ", " c"].map e.normalize = ["a b", "c"] ∧
      e.embedGroup 0 ["a b", "c"] = (e.call 0 ["a b", "c"] none).2.embedEachUnder 0
        [(e.key "a b", "a b"), (e.key "c", "c")] := by
  intro e
  obtain ⟨forms, retries⟩ := @normalize_canonical Int Unit _ _ _ _ _ _ _
  have group : ["a\tb ", " c"].map e.normalize = ["a b", "c"] := by decide +kernel
  refine ⟨?_, group, ?_⟩
  · obtain ⟨-, -, -, -, -, shared⟩ := forms 3 "a\t\n b  c"
    refine shared "a b c" (.char 'a' ?_)
    have second : Feature.Respaced ([' ', ' '] ++ ['c']) ([' '] ++ ['c']) :=
      .gap (by decide) (by decide) (by decide) (by decide) (.char 'c' .nil)
    have first : Feature.Respaced (['\t', '\n', ' '] ++ 'b' :: ([' ', ' '] ++ ['c']))
        ([' '] ++ 'b' :: ([' '] ++ ['c'])) :=
      .gap (by decide) (by decide) (by decide) (by decide) (.char 'b' second)
    exact first
  · have failed : (e.call 0 ["a b", "c"] none).1 = .raised (.plain .provider "too many texts") := by
      rw [call_asked (p := single) (by decide +kernel) rfl (by decide +kernel)]
      rfl
    have retried := retries e (e.call 0 ["a b", "c"] none).2 0 ["a\tb ", " c"]
      (.plain .provider "too many texts") (by rw [group, ← failed]) rfl
    rwa [group] at retried

end Time

end Embedder

end CodeAtlas
