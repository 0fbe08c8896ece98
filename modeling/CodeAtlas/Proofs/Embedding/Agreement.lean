import CodeAtlas.Proofs.Config.Standard
import CodeAtlas.Proofs.Embedding.Account

/-!
# Texts embedded together and one by one

A provider that maps every text to a vector of its own gives the same embeddings whether texts are
embedded together or one by one. Looking up all texts before any is sent, sending them in groups and
dropping entries of the cache in between make no difference, because it does not matter where the
vector of a text comes from: either the provider answers throughout the call, and every text that is
not empty has its vector, or it is not asked at all, and the cache stays as it is.

## Main results

`Embedder.embedAll_agrees`, from `Ready.steps` and `Mute.steps`, the two ways in which an embedder can
stand to its provider.
-/

namespace CodeAtlas.Embedder

variable {τ σ : Type}

section Time

set_option linter.unusedSectionVars false

variable [Add τ] [Sub τ] [LE τ] [DecidableLE τ] [LT τ] [DecidableLT τ] [OfNat τ 0] {now : τ}

/-- The provider maps every text to a vector of its own. -/
def Maps (f : String → List Float) (p : Provider σ) : Prop :=
  ∀ state texts, (p.answer state texts).1 = .value (texts.map f)

variable {P : String → Prop} {f : String → List Float} {p : Provider σ}
variable {start e e' : Embedder τ σ} {done served : List (String × Embedding)}

/-- Every entry of the cache holds the vector of a text that was sent. -/
def Coherent (P : String → Prop) (f : String → List Float) (e : Embedder τ σ) : Prop :=
  ∀ entry ∈ e.cache.entries, ∃ normalized, P normalized ∧ entry.key = e.key normalized ∧
    entry.value = e.remote (f normalized)

theorem vectors_of_call (provided : e.provider = some p) (maps : Maps f p) {texts : List String}
    {limit : Option Float} {vectors : List (List Float)}
    (called : e.call now texts limit = (.value vectors, e')) : vectors = texts.map f := by
  cases call_cases called with
  | asked given answer heard =>
    cases heard with
    | value right =>
      obtain rfl := Option.some.inj (provided.symm.trans given)
      exact Ending.value.inj (answer.symm.trans (maps _ _))

theorem mem_zip_map {texts : List String} {s : String × List Float}
    (member : s ∈ texts.zip (texts.map f)) : s.1 ∈ texts ∧ s.2 = f s.1 := by
  rw [← List.map_prod_left_eq_zip] at member
  obtain ⟨n, among, rfl⟩ := List.mem_map.mp member
  exact ⟨among, rfl⟩

theorem Coherent.step {limit : Option Float} (provided : e.provider = some p) (maps : Maps f p)
    (step : Step P now limit e served e') (coherent : Coherent P f e) : Coherent P f e' := by
  intro entry member
  have made : ∃ n, P n ∧ entry.key = e.key n ∧ entry.value = e.remote (f n) := by
    obtain old | ⟨texts, vectors, e₁, sent, called, s, among, atKey, value⟩ := step.entries member
    · exact coherent entry old
    · obtain rfl := vectors_of_call provided maps called
      obtain ⟨text, vector⟩ := mem_zip_map among
      exact ⟨s.1, sent _ text, atKey, vector ▸ value⟩
  obtain ⟨n, sent, atKey, value⟩ := made
  refine ⟨n, sent, atKey.trans (step.kin.key n).symm, ?_⟩
  rw [value, remote, remote, step.kin.model]

theorem Coherent.call {texts : List String} {limit : Option Float}
    {ending : Ending Failure (List (List Float))} (coherent : Coherent P f e)
    (called : e.call now texts limit = (ending, e')) : Coherent P f e' := by
  intro entry member
  obtain ⟨n, sent, atKey, value⟩ := coherent entry ((cache_call called).1 ▸ member)
  refine ⟨n, sent, atKey.trans ((kin_call called).key n).symm, ?_⟩
  rw [value, remote, remote, (kin_call called).model]

/-! ### The provider answers -/

/-- The provider is there, and calls reach it in time. -/
structure Ready (p : Provider σ) (now : τ) (e : Embedder τ σ) : Prop where
  provided : e.provider = some p
  through : ¬ e.Shut now
  timely : ¬ e.timeout ≤ 0

theorem Ready.of_fields (ready : Ready p now e) (kin : Kin e e')
    (circuit : e'.circuit = e.circuit) : Ready p now e' :=
  ⟨kin.provider.trans ready.provided, by rw [Shut, circuit]; exact ready.through,
    by rw [kin.timeout]; exact ready.timely⟩

theorem Ready.call (ready : Ready p now e) (maps : Maps f p) {texts : List String}
    {ending : Ending Failure (List (List Float))}
    (called : e.call now texts none = (ending, e')) :
    ending = .value (texts.map f) ∧ Ready p now e' := by
  have kin := kin_call called
  have inTime : ¬ e.deadline none ≤ 0 := ready.timely
  have notOpen : (e.circuit.settled now).isOpen = false := Bool.eq_false_iff.mpr ready.through
  rw [call_asked ready.through ready.provided inTime, maps] at called
  obtain ⟨rfl, rfl⟩ := Prod.mk.inj ((if_pos (by simp)).symm.trans called)
  refine ⟨rfl, kin.provider.trans ready.provided, ?_, ready.timely⟩
  rw [Shut, Bool.not_eq_true]
  exact Circuit.not_open_succeed notOpen

/-- A text has the vector of one with the same key, or is empty. -/
def Answered (P : String → Prop) (f : String → List Float) (e : Embedder τ σ)
    (s : String × Embedding) : Prop :=
  (∃ n, P n ∧ e.key s.1 = e.key n ∧ s.2 = e.remote (f n)) ∨ (s.1 = "" ∧ s.2 = e.feature "")

theorem Ready.step (ready : Ready p now e) (maps : Maps f p) (coherent : Coherent P f e)
    (step : Step P now none e served e') : Ready p now e' ∧ ∀ s ∈ served, Answered P f e s := by
  have kin := step.kin
  cases step with
  | looked normalized => exact ⟨ready.of_fields kin rfl, List.forall_mem_nil _⟩
  | hit held =>
    refine ⟨ready.of_fields kin rfl, List.forall_mem_singleton.mpr (.inl ?_)⟩
    obtain ⟨entry, present, atKey, rfl⟩ := Cache.get_found held
    obtain ⟨n, sent, key, value⟩ := coherent entry present
    exact ⟨n, sent, atKey.symm.trans key, value⟩
  | @spared normalized missing stays =>
    -- There is a provider, so only an empty text is spared.
    refine ⟨ready.of_fields kin rfl, List.forall_mem_singleton.mpr (.inr ?_)⟩
    obtain rfl : normalized = "" := by simpa [ready.provided] using stays
    exact ⟨rfl, rfl⟩
  | settled =>
    refine ⟨⟨ready.provided, ?_, ready.timely⟩, List.forall_mem_nil _⟩
    rw [Shut, settle, Circuit.settled_settled]
    exact ready.through
  | withheld missing shut => exact absurd shut ready.through
  | answered sent called =>
    obtain ⟨same, after⟩ := ready.call maps called
    obtain rfl := Ending.value.inj same
    obtain ⟨cache, tally, kept⟩ := keepAll_fields _ now _
    refine ⟨after.of_fields (kin_keepAll _ _) (by rw [kept]), fun s member => .inl ?_⟩
    obtain ⟨s, among, rfl⟩ := List.mem_map.mp member
    obtain ⟨text, vector⟩ := mem_zip_map among
    refine ⟨s.1, sent _ text, rfl, ?_⟩
    simp only [remote, vector, (kin_call called).model]
  | failed missing sent called => cases (ready.call maps called).1
  | split sent called => cases (ready.call maps called).1

theorem Ready.steps (ready : Ready p now start) (maps : Maps f p) (coherent : Coherent P f start)
    (steps : Steps P now none start served e') : ∀ s ∈ served, Answered P f start s := by
  refine steps.provides (I := fun e => Kin start e ∧ Coherent P f e ∧ Ready p now e)
    ⟨.refl start, coherent, ready⟩ ?_
  rintro e e' served step ⟨kin, coherent, ready⟩
  obtain ⟨after, new⟩ := ready.step maps coherent step
  refine ⟨⟨kin.trans step.kin, coherent.step ready.provided maps step, after⟩, fun s member => ?_⟩
  obtain ⟨n, sent, atKey, vector⟩ | ⟨empty, local_⟩ := new s member
  · rw [kin.key, kin.key] at atKey
    refine .inl ⟨n, sent, atKey, ?_⟩
    rw [vector, remote, remote, kin.model]
  · refine .inr ⟨empty, ?_⟩
    rw [local_, feature, feature, kin.config]

/-! ### The provider is not asked -/

/-- No call reaches the provider. -/
def Mute (now : τ) (e : Embedder τ σ) : Prop :=
  e.Shut now ∨ e.timeout ≤ 0

theorem Mute.settle (mute : Mute now e) : Mute now (e.settle now) := by
  refine mute.imp_left fun shut => ?_
  rw [Shut, Embedder.settle, Circuit.settled_settled]
  exact shut

theorem Mute.call (mute : Mute now e) {texts : List String}
    {ending : Ending Failure (List (List Float))} (called : e.call now texts none = (ending, e')) :
    (∃ f, ending = .raised f) ∧ Mute now e' := by
  by_cases shut : e.Shut now
  · rw [call_shut shut] at called
    obtain ⟨rfl, rfl⟩ := Prod.mk.inj called
    exact ⟨⟨_, rfl⟩, mute.settle⟩
  -- A call without time fails before the provider is asked, whether there is one or not.
  · have late : e.timeout ≤ 0 := mute.resolve_left shut
    refine ⟨?_, .inr (by rw [(kin_call called).timeout]; exact late)⟩
    cases provided : e.provider with
    | none =>
      rw [call_unprovided shut provided] at called
      exact ⟨_, (Prod.mk.inj called).1.symm⟩
    | some p =>
      rw [call_untimely shut provided (by exact late)] at called
      exact ⟨_, (Prod.mk.inj called).1.symm⟩

theorem Mute.step (mute : Mute now e) (step : Step P now none e served e') :
    Mute now e' ∧ (∀ n, e'.held? now n = e.held? now n) ∧
      ∀ s ∈ served, s.2 = (e.held? now s.1).getD (e.feature s.1) := by
  cases step with
  | looked normalized => exact ⟨mute, held?_look e normalized, List.forall_mem_nil _⟩
  | hit held =>
    exact ⟨mute, held?_look e _, List.forall_mem_singleton.mpr (by rw [held]; rfl)⟩
  | spared missing stays =>
    exact ⟨mute, fun _ => rfl, List.forall_mem_singleton.mpr (by rw [missing]; rfl)⟩
  | settled => exact ⟨mute.settle, fun _ => rfl, List.forall_mem_nil _⟩
  | withheld missing shut =>
    exact ⟨mute, fun _ => rfl, List.forall_mem_singleton.mpr (by rw [missing]; rfl)⟩
  | answered sent called =>
    obtain ⟨f, other⟩ := (mute.call called).1
    cases other
  | failed missing sent called =>
    have same := held?_call called
    refine ⟨(mute.call called).2, fun n => same n, List.forall_mem_singleton.mpr ?_⟩
    rw [missing, Option.getD_none, feature, feature, (kin_call called).config]
  | split sent called =>
    exact ⟨(mute.call called).2, held?_call called, List.forall_mem_nil _⟩

theorem Mute.steps (mute : Mute now start) (steps : Steps P now none start served e') :
    ∀ s ∈ served, s.2 = (start.held? now s.1).getD (start.feature s.1) := by
  refine steps.provides (I := fun e => Kin start e ∧ Mute now e ∧
    ∀ n, e.held? now n = start.held? now n) ⟨.refl start, mute, fun _ => rfl⟩ ?_
  rintro e e' served step ⟨kin, mute, held⟩
  obtain ⟨after, same, new⟩ := mute.step step
  refine ⟨⟨kin.trans step.kin, after, fun n => (same n).trans (held n)⟩, fun s member => ?_⟩
  rw [new s member, held, feature, feature, kin.config]

/-! ### Together and one by one -/

theorem eq_map_of_zip {texts : List String} {found : List Embedding} {want : String → Embedding}
    (length : found.length = texts.length) (right : ∀ s ∈ texts.zip found, s.2 = want s.1) :
    found = texts.map want :=
  calc found
    _ = (texts.zip found).map Prod.snd := (List.map_snd_zip length.le).symm
    _ = (texts.zip found).map (want ∘ Prod.fst) := List.map_congr_left right
    _ = ((texts.zip found).map Prod.fst).map want := (List.map_map).symm
    _ = texts.map want := by rw [List.map_fst_zip length.ge]

/-- When steps settle the embedding of every text, texts are embedded alike in both ways. -/
theorem agrees_of_settled {texts : List String} (patient : e.patience = none)
    (foreseen : ∀ p, e.provider = some p → ∀ state texts f,
      (p.answer state texts).1 = .raised f → isForeseen f = true)
    (positive : 0 < e.config.batchSize)
    (sent : ∀ text ∈ texts, e.normalize text ≠ "" → P (e.normalize text))
    (want : String → Embedding) (settled : ∀ served e', Steps P now none e served e' →
      ∀ s ∈ served, s.1 ∈ texts.map e.normalize → s.2 = want s.1) :
    ∃ found, (e.embedAll now texts).1 = .value found ∧ (e.embedEach now texts).1 = .value found := by
  obtain ⟨together, served, e₁, ran, steps, right⟩ :=
    (embedAll_ends now sent).isServed patient foreseen
  obtain ⟨each, served', e₂, ran', steps', length', rfl⟩ :=
    (embedEach_ends now sent).isServed patient foreseen
  obtain ⟨length, perm⟩ := right positive
  have first := eq_map_of_zip length fun s member =>
    settled _ _ steps s (perm.mem_iff.mpr member) (List.of_mem_zip member).1
  have second := eq_map_of_zip length' fun s member =>
    settled _ _ steps' s member (List.of_mem_zip member).1
  exact ⟨together, congrArg Prod.fst ran, by rw [ran', second, ← first]⟩

/-! ### A history of calls -/

theorem Coherent.perform (provided : e.provider = some p) (maps : Maps f p)
    (coherent : Coherent P f e) {task : EmbeddingTask}
    (sent : ∀ text ∈ task.texts, e.normalize text ≠ "" → P (e.normalize text)) :
    Coherent P f (e.perform now task).2 := by
  obtain ⟨limit, ends⟩ := perform_ends e now task sent
  refine (ends.maintains (I := fun e => e.provider = some p ∧ Coherent P f e) ⟨provided, coherent⟩
    (fun step ⟨provided, coherent⟩ => ?_) fun called ⟨provided, coherent⟩ => ?_).2
  · exact ⟨step.kin.provider.trans provided, coherent.step provided maps step⟩
  · exact ⟨(kin_call called).provider.trans provided, coherent.call called⟩

theorem coherent_after {e : Embedder τ σ} (empty : e.cache.entries = [])
    (provided : e.provider = some p) (maps : Maps f p) {calls : List (EmbeddingCall τ)}
    {involved : List String} (within : calls.flatMap (·.task.texts) ⊆ involved) :
    Coherent ((e.after calls).Sendable involved) f (e.after calls) := by
  rw [(kin_after e calls).sendable]
  refine after_keeps (I := Coherent (e.Sendable involved) f) (by simp [Coherent, empty])
    (fun e' limit before => before) fun e' kin call member before => ?_
  refine before.perform (kin.provider.trans provided) maps fun text among => ?_
  rw [kin.normalize]
  exact sendable_of_mem (within (List.mem_flatMap.mpr ⟨call, member, among⟩))

/-- Texts that are embedded together get the embeddings that they get one by one. -/
theorem embedAll_agrees (duration : Float → τ) {config : EmbeddingConfig}
    (positive : 0 < config.batchSize) (settings : Settings) (p : Provider σ)
    {f : String → List Float} (maps : Maps f p) (state : σ) (history : List (EmbeddingCall τ))
    (now : τ) {texts : List String}
    (collisionless : (create duration config settings (some p) state).Collisionless
      (history.flatMap (·.task.texts) ++ texts)) :
    let e := (create duration config settings (some p) state).after history
    ∃ found, (e.embedAll now texts).1 = .value found ∧ (e.embedEach now texts).1 = .value found := by
  generalize made : create duration config settings (some p) state = fresh at collisionless
  have start : fresh.cache.entries = [] ∧ fresh.patience = none ∧ fresh.config = config ∧
      fresh.provider = some p := by
    rw [← made]
    exact ⟨rfl, rfl, rfl, rfl⟩
  obtain ⟨empty, patient, given, provided⟩ := start
  have kin := kin_after fresh history
  intro e
  let involved := history.flatMap (·.task.texts) ++ texts
  have coherent : Coherent (e.Sendable involved) f e :=
    coherent_after empty provided maps (List.subset_append_left _ _)
  have foreseen : ∀ p', e.provider = some p' → ∀ state texts f,
      (p'.answer state texts).1 = .raised f → isForeseen f = true := by
    intro p' given state texts f raised
    obtain rfl := Option.some.inj ((kin.provider.trans provided).symm.trans given)
    cases (maps state texts).symm.trans raised
  have sent : ∀ text ∈ texts, e.normalize text ≠ "" → e.Sendable involved (e.normalize text) :=
    fun text among => sendable_of_mem (List.mem_append_right _ among)
  have groups : 0 < e.config.batchSize := by rwa [kin.config, given]
  have patient' : e.patience = none := patience_after patient history
  by_cases mute : Mute now e
  -- Nothing is sent: a text has what the cache holds for it, or its feature vector.
  · exact agrees_of_settled patient' foreseen groups sent
      (fun n => (e.held? now n).getD (e.feature n))
      fun served e' steps s member _ => mute.steps steps s member
  -- Everything is answered: a text has its vector, be it from the cache or from an answer.
  · have ready : Ready p now e :=
      ⟨kin.provider.trans provided, fun shut => mute (.inl shut), fun late => mute (.inr late)⟩
    refine agrees_of_settled patient' foreseen groups sent
      (fun n => if n = "" then e.feature n else e.remote (f n))
      fun served e' steps s member among => ?_
    obtain ⟨n, known, atKey, vector⟩ | ⟨empty, standsIn⟩ := ready.steps maps coherent steps s member
    · have same : s.1 = n := (kin.collisionless collisionless).eq_of_key
        (List.map_subset e.normalize (List.subset_append_right _ _) among) known.2 atKey
      rw [vector, same, if_neg known.1]
    · rw [standsIn, if_pos empty, empty]

/-- Texts twice over, in a cache for one entry, by groups of two. -/
theorem embedAll_agrees_evicting :
    let config := { EngineConfig.standard.embeddings with batchSize := 2, cacheSize := 1 }
    let f (text : String) : List Float := if text == "a" then [1.0] else [0.0]
    let p : Provider Unit := { model := "fixed", answer := fun s texts => (.value (texts.map f), s) }
    let history : List (EmbeddingCall Int) := [{ now := 0, task := .many ["b", "a"] }]
    let e := (create (fun _ => 60) config Settings.standard (some p) ()).after history
    ∃ found, (e.embedAll 1 ["a", "b", " a ", "", "b"]).1 = .value found ∧
      (e.embedEach 1 ["a", "b", " a ", "", "b"]).1 = .value found := by
  intro config f p history
  let fresh : Embedder Int Unit := create (fun _ => 60) config Settings.standard (some p) ()
  have collisionless : fresh.Collisionless
      (history.flatMap (·.task.texts) ++ ["a", "b", " a ", "", "b"]) := by
    decide +kernel
  exact embedAll_agrees (fun _ => 60) (show 0 < config.batchSize by decide) Settings.standard p
    (fun _ _ => rfl) () history 1 collisionless

end Time

end CodeAtlas.Embedder
