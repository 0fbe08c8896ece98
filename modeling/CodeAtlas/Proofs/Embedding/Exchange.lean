import CodeAtlas.Proofs.Config.Standard
import CodeAtlas.Proofs.Embedding.Embedder

/-!
# What an embedder asks its provider

The calls of a provider are written down beside its state, and nothing else changes by that: an
embedder whose provider is recorded embeds as it does without the record. So it can be said of any
embedder what its provider was asked, and what it answered, while some calls were served.

Whatever a provider does, texts get their embeddings, but for one case: a failure of a kind that is
not foreseen is passed on. It is passed on at once, by whichever call it comes from, and nothing else
ever is.

## Main results

`Embedder.plain_after` and `Embedder.plain_embedAll`: leaving the record out is the same before a
call as after it.
`Embedder.perform_downgrades` says for every embedder and every task how it ends, by what the provider
was asked and what it did. `Embedder.embed_crashes` is a failure that surfaces.
-/

namespace CodeAtlas

/-! ## The record of a provider -/

/-- A call of a provider: the texts that it was sent, and how it ended. -/
structure Exchange where
  texts : List String
  ending : Ending Failure (List (List Float))

namespace Exchange

/-- The provider gave this vector for this text: in an answer of the right length it stands where the
text stands in the call. -/
def Gave (x : Exchange) (text : String) (vector : List Float) : Prop :=
  ∃ vectors, x.ending = .value vectors ∧ vectors.length = x.texts.length ∧
    (text, vector) ∈ x.texts.zip vectors

/-- The provider failed in a way for which nothing stands in. -/
def Crashed (x : Exchange) (f : Failure) : Prop :=
  x.ending = .raised f ∧ Embedder.isForeseen f = false

end Exchange

/-- A provider that writes down every call, the latest one last. -/
def Provider.recorded {σ : Type} (p : Provider σ) : Provider (σ × List Exchange) where
  model := p.model
  answer s texts :=
    let (ending, state) := p.answer s.1 texts
    (ending, state, s.2 ++ [⟨texts, ending⟩])

/-- What an embedder is asked to embed. -/
inductive EmbeddingTask where
  | one (text : String) (limit : Option Float)
  | many (texts : List String)

/-- The texts of a task. -/
def EmbeddingTask.texts : EmbeddingTask → List String
  | .one text _ => [text]
  | .many texts => texts

/-- A call of an embedder at some time; the operation that it is made for may wait no longer than
`patience`. -/
structure EmbeddingCall (τ : Type) where
  now : τ
  patience : Option Float := none
  task : EmbeddingTask

namespace Embedder

variable {τ σ : Type}

/-- The embedder with a provider that is recorded from now on. -/
def recorded (e : Embedder τ σ) : Embedder τ (σ × List Exchange) :=
  { e with provider := e.provider.map (·.recorded), state := (e.state, []) }

/-- The embedder without the record of its provider. -/
def plain (provider : Option (Provider σ)) (e : Embedder τ (σ × List Exchange)) : Embedder τ σ :=
  { e with provider, state := e.state.1 }

/-- The calls that are written down. -/
def record (e : Embedder τ (σ × List Exchange)) : List Exchange :=
  e.state.2

section Time

variable [Add τ] [Sub τ] [LE τ] [DecidableLE τ] [LT τ] [DecidableLT τ] [OfNat τ 0]

/-- Embeds the texts of a task. -/
def perform (e : Embedder τ σ) (now : τ) :
    EmbeddingTask → Ending Failure (List Embedding) × Embedder τ σ
  | .one text limit =>
    let (ending, e) := e.embed now text limit
    (ending.map ([·]), e)
  | .many texts => e.embedAll now texts

/-- Serves a call. -/
def serve (e : Embedder τ σ) (call : EmbeddingCall τ) :
    Ending Failure (List Embedding) × Embedder τ σ :=
  match call.patience with
  | none => e.perform call.now call.task
  | some seconds => e.patiently seconds (·.perform call.now call.task)

/-- The embedder after some calls, first one first. -/
def after (e : Embedder τ σ) (calls : List (EmbeddingCall τ)) : Embedder τ σ :=
  calls.foldl (fun e call => (e.serve call).2) e

/-- What the provider was asked and what it answered while some calls were served. -/
def exchanges (e : Embedder τ σ) (calls : List (EmbeddingCall τ)) : List Exchange :=
  (e.recorded.after calls).record

end Time

/-! ### The record changes nothing -/

section Time

set_option linter.unusedSectionVars false

variable [Add τ] [Sub τ] [LE τ] [DecidableLE τ] [LT τ] [DecidableLT τ] [OfNat τ 0] {now : τ}
variable {provider : Option (Provider σ)} {e : Embedder τ (σ × List Exchange)}

/-- The provider is the recorded one. -/
def Records (provider : Option (Provider σ)) (e : Embedder τ (σ × List Exchange)) : Prop :=
  e.provider = provider.map (·.recorded)

theorem plain_giveUp (e : Embedder τ (σ × List Exchange)) (deadline : Float) :
    (e.plain provider).giveUp now deadline =
      Prod.map id (plain provider) (e.giveUp now deadline) := by
  simp only [giveUp, plain]
  split
  · rfl
  · split <;> rfl

theorem plain_heard (e : Embedder τ (σ × List Exchange)) (count : Nat) (deadline : Float)
    (ended : Ending Failure (List (List Float))) :
    (e.plain provider).heard now count deadline ended =
      Prod.map id (plain provider) (e.heard now count deadline ended) := by
  cases ended with
  | value vectors =>
    simp only [heard]
    split <;> rfl
  | raised f => rfl
  | timedOut => rfl
  | never => exact plain_giveUp e deadline

theorem plain_call (now : τ) (records : e.Records provider) (texts : List String)
    (limit : Option Float) : (e.plain provider).call now texts limit =
      Prod.map id (plain provider) (e.call now texts limit) := by
  by_cases shut : e.Shut now
  · rw [call_shut shut, call_shut (by exact shut)]
    rfl
  cases provider with
  | none =>
    rw [call_unprovided shut records, call_unprovided (by exact shut) rfl]
    rfl
  | some p =>
    by_cases late : e.deadline limit ≤ 0
    · rw [call_untimely shut records late, call_untimely (by exact shut) rfl (by exact late)]
      rfl
    · rw [call_asked shut records late, call_asked (by exact shut) rfl (by exact late)]
      exact plain_heard { e.settle now with state := (p.recorded.answer e.state texts).2 } _ _ _

theorem plain_conclude (e : Embedder τ (σ × List Exchange)) (normalized : String)
    (ending : Ending Failure (List (List Float))) :
    (e.plain provider).conclude now normalized ending =
      Prod.map id (plain provider) (e.conclude now normalized ending) := by
  cases ending with
  | raised f =>
    simp only [conclude]
    split <;> rfl
  | _ => rfl

theorem plain_embed (records : e.Records provider) (text : String) (limit : Option Float) :
    (e.plain provider).embed now text limit =
      Prod.map id (plain provider) (e.embed now text limit) := by
  cases held : e.held? now (e.normalize text) with
  | some embedding =>
    rw [embed_held held, embed_held (by exact held)]
    rfl
  | none =>
    have without : (e.plain provider).provider.isNone = e.provider.isNone := by
      rw [records, Option.isNone_map]
      rfl
    by_cases stays : (e.provider.isNone || (e.normalize text).isEmpty) = true
    · rw [embed_spared held stays, embed_spared (by exact held) (by rw [without]; exact stays)]
      rfl
    · rw [embed_sent held stays, embed_sent (by exact held) (by rw [without]; exact stays)]
      have called := plain_call (e := e.look now (e.normalize text)) now records
        [e.normalize text] limit
      refine Eq.trans ?_ (plain_conclude _ _ _)
      exact congrArg (fun out => out.2.conclude now (e.normalize text) out.1) called

theorem plain_lookUpAll (records : e.Records provider) (texts : List String) :
    (e.plain provider).lookUpAll now texts =
      Prod.map id (plain provider) (e.lookUpAll now texts) := by
  induction texts generalizing e with
  | nil => rfl
  | cons normalized rest ih =>
    have hit := ih (e := (e.look now normalized).countHit) records
    have spared := ih (e := ((e.look now normalized).fallBack normalized).2) records
    have sent := ih (e := e.look now normalized) records
    -- In terms of the fields of the embedder both sides read the same cache.
    obtain ⟨config, model, timeout, p, state, cache, circuit, tally, patience⟩ := e
    obtain rfl : p = provider.map (·.recorded) := records
    simp only [lookUpAll, plain, look, key, countHit, fallBack, Option.isNone_map] at hit spared sent ⊢
    split
    · rw [hit]
      rfl
    · by_cases stays : (provider.isNone || normalized.isEmpty) = true
      · simp only [stays, if_true]
        rw [spared]
        rfl
      · simp only [stays, Bool.false_eq_true, if_false]
        rw [sent]
        rfl

theorem plain_fallBackAll (e : Embedder τ (σ × List Exchange)) (texts : List String) :
    (e.plain provider).fallBackAll texts = Prod.map id (plain provider) (e.fallBackAll texts) := by
  induction texts generalizing e with
  | nil => rfl
  | cons normalized rest ih =>
    exact congrArg (fun out => (e.feature normalized :: out.1, out.2)) (ih (e.fallBack normalized).2)

theorem plain_keepAll (e : Embedder τ (σ × List Exchange)) (sent : List (String × List Float)) :
    (e.plain provider).keepAll now sent = Prod.map id (plain provider) (e.keepAll now sent) := by
  induction sent generalizing e with
  | nil => rfl
  | cons first rest ih =>
    exact congrArg (fun out => (e.remote first.2 :: out.1, out.2)) (ih (e.keep now first.1 first.2).2)

theorem plain_embedEach (records : e.Records provider) (texts : List String) :
    (e.plain provider).embedEach now texts =
      Prod.map id (plain provider) (e.embedEach now texts) := by
  induction texts generalizing e with
  | nil => rfl
  | cons text rest ih =>
    have kin := kin_embed now e text none
    simp only [embedEach]
    rw [plain_embed records]
    generalize e.embed now text none = out at kin ⊢
    obtain ⟨ending, e'⟩ := out
    cases ending with
    | value embedding =>
      simp only [Prod.map, id]
      rw [ih (kin.provider.trans records)]
      generalize e'.embedEach now rest = out
      obtain ⟨ending, e''⟩ := out
      cases ending <;> rfl
    | _ => rfl

theorem plain_embedGroup (records : e.Records provider) (group : List String) :
    (e.plain provider).embedGroup now group =
      Prod.map id (plain provider) (e.embedGroup now group) := by
  simp only [embedGroup]
  rw [plain_call now records]
  cases called : e.call now group none with
  | mk ending e' =>
    cases ending with
    | value vectors =>
      simp only [Prod.map, id]
      rw [plain_keepAll]
      rfl
    | raised f =>
      simp only [Prod.map, id]
      split
      · exact plain_embedEach ((kin_call called).provider.trans records) group
      · rfl
    | _ => rfl

theorem plain_embedGroups (records : e.Records provider) (groups : List (List String)) :
    (e.plain provider).embedGroups now groups =
      Prod.map id (plain provider) (e.embedGroups now groups) := by
  induction groups generalizing e with
  | nil => rfl
  | cons group rest ih =>
    have kin := kin_embedGroup now e group
    simp only [embedGroups]
    rw [plain_embedGroup records]
    generalize e.embedGroup now group = out at kin ⊢
    obtain ⟨ending, e'⟩ := out
    cases ending with
    | value found =>
      simp only [Prod.map, id]
      rw [ih (kin.provider.trans records)]
      generalize e'.embedGroups now rest = out
      obtain ⟨ending, e''⟩ := out
      cases ending <;> rfl
    | _ => rfl

theorem plain_embedPending (records : e.Records provider) (pending : List String) :
    (e.plain provider).embedPending now pending =
      Prod.map id (plain provider) (e.embedPending now pending) := by
  simp only [embedPending]
  split
  · rfl
  · by_cases shut : e.Shut now
    · rw [if_pos shut, if_pos (by exact shut)]
      exact congrArg (fun out => (Ending.value out.1, out.2))
        (plain_fallBackAll (e.settle now) pending)
    · rw [if_neg shut, if_neg (by exact shut)]
      exact plain_embedGroups (e := e.settle now) records _

theorem plain_embedAll (records : e.Records provider) (texts : List String) :
    (e.plain provider).embedAll now texts =
      Prod.map id (plain provider) (e.embedAll now texts) := by
  have kin : Kin e (e.lookUpAll now (texts.map e.normalize)).2 :=
    (lookUpAll_steps (P := fun _ => True) now e _).steps.kin
  rw [embedAll_eq, embedAll_eq]
  simp only
  rw [show (e.plain provider).normalize = e.normalize from rfl, plain_lookUpAll records]
  exact congrArg (·.map (·.map (fill (e.lookUpAll now (texts.map e.normalize)).1)) id)
    (plain_embedPending (kin.provider.trans records) _)

theorem plain_perform (records : e.Records provider) (task : EmbeddingTask) :
    (e.plain provider).perform now task = Prod.map id (plain provider) (e.perform now task) := by
  cases task with
  | one text limit => exact congrArg (·.map (·.map ([·])) id) (plain_embed records text limit)
  | many texts => exact plain_embedAll records texts

theorem plain_serve (records : e.Records provider) (call : EmbeddingCall τ) :
    (e.plain provider).serve call = Prod.map id (plain provider) (e.serve call) := by
  simp only [serve]
  split
  · exact plain_perform records call.task
  next seconds _ =>
    exact congrArg (fun out => (out.1, { out.2 with patience := none }))
      (plain_perform (e := { e with patience := some seconds }) records call.task)

theorem kin_perform (now : τ) (e : Embedder τ σ) (task : EmbeddingTask) :
    Kin e (e.perform now task).2 := by
  cases task with
  | one text limit => exact kin_embed now e text limit
  | many texts => exact kin_embedAll now e texts

theorem kin_serve (e : Embedder τ σ) (call : EmbeddingCall τ) : Kin e (e.serve call).2 := by
  simp only [serve]
  split
  · exact kin_perform call.now e call.task
  next seconds _ =>
    obtain ⟨config, provider, model, timeout⟩ :=
      kin_perform call.now { e with patience := some seconds } call.task
    exact ⟨config, provider, model, timeout⟩

theorem perform_ends {P : String → Prop} (e : Embedder τ σ) (now : τ) (task : EmbeddingTask)
    (sent : ∀ text ∈ task.texts, e.normalize text ≠ "" → P (e.normalize text)) :
    ∃ limit, Ends P now limit e (fun found served => 0 < e.config.batchSize →
      ServesAll (task.texts.map e.normalize) found served) (e.perform now task) := by
  cases task with
  | one text limit =>
    have one := embed_ends now limit (sent text List.mem_cons_self)
    exact ⟨limit, one.map ([·]) fun embedding served right _ => ⟨rfl, right ▸ .refl _⟩⟩
  | many texts => exact ⟨none, embedAll_ends now sent⟩

/-- What does not depend on patience and is kept by every task holds after some calls. -/
theorem after_keeps {I : Embedder τ σ → Prop} {e : Embedder τ σ} {calls : List (EmbeddingCall τ)}
    (start : I e) (patience : ∀ e limit, I e → I { e with patience := limit })
    (perform : ∀ e', Kin e e' → ∀ call ∈ calls, I e' → I (e'.perform call.now call.task).2) :
    I (e.after calls) := by
  induction calls generalizing e with
  | nil => exact start
  | cons call rest ih =>
    refine ih ?_ fun e' kin call member =>
      perform e' ((kin_serve e _).trans kin) call (List.mem_cons_of_mem _ member)
    have one := fun e' kin => perform e' kin call List.mem_cons_self
    simp only [serve]
    split
    · exact one e (.refl e) start
    · exact patience _ none (one _ ⟨rfl, rfl, rfl, rfl⟩ (patience e _ start))

theorem kin_after (e : Embedder τ σ) (calls : List (EmbeddingCall τ)) : Kin e (e.after calls) := by
  induction calls generalizing e with
  | nil => exact .refl e
  | cons call rest ih => exact (kin_serve e call).trans (ih _)

theorem patience_after {e : Embedder τ σ} (patient : e.patience = none)
    (calls : List (EmbeddingCall τ)) : (e.after calls).patience = none := by
  induction calls generalizing e with
  | nil => exact patient
  | cons call rest ih =>
    refine ih ?_
    simp only [serve]
    split
    · obtain ⟨limit, ends⟩ := perform_ends (P := fun _ => True) e call.now call.task
        fun _ _ _ => trivial
      exact ends.maintains (I := fun e => e.patience = none) patient
        (fun step patient => step.steps.patient patient) patience_call
    · rfl

theorem plain_after (records : e.Records provider) (calls : List (EmbeddingCall τ)) :
    (e.plain provider).after calls = (e.after calls).plain provider := by
  induction calls generalizing e with
  | nil => rfl
  | cons call rest ih =>
    have served := plain_serve records call
    simp only [after, List.foldl_cons] at ih ⊢
    rw [served]
    exact ih ((kin_serve e call).provider.trans records)

theorem records_recorded (e : Embedder τ σ) : e.recorded.Records e.provider :=
  rfl

/-- A call of the provider is written down with what the provider did; a call that does not reach it
is not. -/
theorem record_call (records : e.Records provider) {texts : List String} {limit : Option Float}
    {ending : Ending Failure (List (List Float))} {e' : Embedder τ (σ × List Exchange)}
    (called : e.call now texts limit = (ending, e')) :
    (e'.record = e.record ∧ ∃ f, ending = .raised f ∧ isForeseen f = true) ∨
      ∃ ended, e'.record = e.record ++ [⟨texts, ended⟩] ∧
        Heard texts.length e.patience ended ending := by
  cases call_cases called with
  | unasked foreseen circuit => exact .inl ⟨rfl, _, rfl, foreseen⟩
  | asked given answer heard =>
    refine .inr ⟨_, ?_, heard⟩
    rw [show e.provider = provider.map (·.recorded) from records, Option.map_eq_some_iff] at given
    obtain ⟨p, -, rfl⟩ := given
    rw [← answer]
    rfl

end Time

end Embedder

end CodeAtlas

namespace CodeAtlas.Embedder

/-! ## Which failures surface -/

variable {τ σ : Type}

section Time

set_option linter.unusedSectionVars false

variable [Add τ] [Sub τ] [LE τ] [DecidableLE τ] [LT τ] [DecidableLT τ] [OfNat τ 0] {now : τ}

/-- No exchange was a failure of a kind that is not foreseen. -/
def Calm (log : List Exchange) : Prop :=
  ∀ x ∈ log, ∀ f, ¬ x.Crashed f

section Record

variable {provider : Option (Provider σ)} {e e' : Embedder τ (σ × List Exchange)}
variable {texts : List String} {limit : Option Float}

/-- A call that ends in a foreseen way has not met a failure that is not. -/
theorem calm_call (records : e.Records provider) {ending : Ending Failure (List (List Float))}
    (called : e.call now texts limit = (ending, e'))
    (foreseen : ∀ f, ending = .raised f → isForeseen f = true) (calm : Calm e.record) :
    Calm e'.record := by
  obtain ⟨same, -⟩ | ⟨ended, more, heard⟩ := record_call records called
  · rwa [same]
  · rw [more]
    refine List.forall_mem_append.mpr ⟨calm, List.forall_mem_singleton.mpr ?_⟩
    rintro f ⟨raised, unforeseen⟩
    obtain rfl : ended = .raised f := raised
    cases heard with
    | raised => simp [foreseen f rfl] at unforeseen
    | failed calm => exact calm f rfl

theorem crashed_call (records : e.Records provider) {f : Failure}
    (called : e.call now texts limit = (.raised f, e')) (unforeseen : isForeseen f = false) :
    e'.record = e.record ++ [⟨texts, .raised f⟩] := by
  obtain ⟨-, g, same, foreseen⟩ | ⟨ended, more, heard⟩ := record_call records called
  · cases same
    simp [foreseen] at unforeseen
  · cases heard with
    | raised => exact more
    | failed calm foreseen => simp [foreseen] at unforeseen

theorem calm_steps {P : String → Prop} {served : List (String × Embedding)}
    (records : e.Records provider) (steps : Steps P now limit e served e') (calm : Calm e.record) :
    Calm e'.record := by
  refine (steps.maintains (I := fun e => e.Records provider ∧ Calm e.record) ⟨records, calm⟩
    fun step ⟨records, calm⟩ => ⟨step.kin.provider.trans records, ?_⟩).2
  cases step with
  | answered sent called =>
    obtain ⟨cache, tally, same⟩ := keepAll_fields _ now _
    have after := calm_call records called nofun calm
    rwa [same]
  | failed missing sent called foreseen =>
    have after := calm_call records called (fun _ same => Ending.raised.inj same ▸ foreseen) calm
    exact after
  | split sent called foreseen =>
    exact calm_call records called (fun _ same => Ending.raised.inj same ▸ foreseen) calm
  | _ => exact calm

end Record

/-- A task ends with one embedding for each text, unless the provider fails as nobody foresees; the
first such failure ends the task, and it is passed on. -/
theorem perform_downgrades {e : Embedder τ σ} (patient : e.patience = none)
    (positive : 0 < e.config.batchSize) (now : τ) (task : EmbeddingTask) :
    (∃ found, (e.perform now task).1 = .value found ∧ found.length = task.texts.length ∧
        Calm (e.exchanges [{ now, task }])) ∨
      ∃ f before x, (e.perform now task).1 = .raised f ∧ x.Crashed f ∧
        e.exchanges [{ now, task }] = before ++ [x] ∧ Calm before := by
  -- What is said of the exchanges is read off the same task with the record.
  have beside : e.perform now task = (e.recorded.perform now task).map id (plain e.provider) :=
    plain_perform (records_recorded e) task
  have during : e.exchanges [{ now, task }] = (e.recorded.perform now task).2.record := rfl
  have silent : Calm e.recorded.record := List.forall_mem_nil _
  obtain ⟨limit, ends⟩ := perform_ends (P := fun _ => True) e.recorded now task fun _ _ _ => trivial
  rw [during, beside]
  generalize e.recorded.perform now task = out at ends ⊢
  cases ends with
  | served steps right =>
    refine .inl ⟨_, rfl, ?_, calm_steps (records_recorded e) steps silent⟩
    rw [(right positive).1, List.length_map]
  | crashed steps sent called unforeseen =>
    have records := steps.kin.provider.trans (records_recorded e)
    exact .inr ⟨_, _, _, rfl, ⟨rfl, unforeseen⟩, crashed_call records called unforeseen,
      calm_steps (records_recorded e) steps silent⟩
  | abandoned steps sent called =>
    exact absurd (steps.patient patient) (impatient_of_call called)

/-- An embedder whose provider fails as nobody foresees, whatever it is asked. -/
def crashing : Embedder Int Unit :=
  let provider : Provider Unit := {
    model := "crashing"
    answer := fun s _ => (.raised (.plain (.unforeseen "RuntimeError") "provider crashed"), s) }
  create (fun _ => 60) EngineConfig.standard.embeddings Settings.standard provider ()

/-- Of two texts the crash of their group is the first exchange and the last. -/
theorem perform_downgrades_crashing :
    crashing.patience = none ∧ 0 < crashing.config.batchSize ∧
      ∃ f x, (crashing.perform 0 (.many ["a", "b"])).1 = .raised f ∧ x.Crashed f ∧
        crashing.exchanges [{ now := 0, task := .many ["a", "b"] }] = [x] := by
  refine ⟨rfl, by decide, ?_⟩
  obtain ⟨found, value, -⟩ | ⟨f, before, x, raised, surfaces, during, -⟩ :=
    perform_downgrades (e := crashing) rfl (by decide) 0 (.many ["a", "b"])
  · have raised : (crashing.perform 0 (.many ["a", "b"])).1 =
        .raised (.plain (.unforeseen "RuntimeError") "provider crashed") := by rfl
    cases raised.symm.trans value
  · have one : (crashing.exchanges [{ now := 0, task := .many ["a", "b"] }]).length = 1 := by
      decide +kernel
    rw [during, List.length_append, List.length_singleton] at one
    obtain rfl : before = [] := List.length_eq_zero_iff.mp (by omega)
    exact ⟨f, x, raised, surfaces, during⟩

/-- A failure that nobody foresees surfaces: nothing stands in for the embeddings. -/
theorem embed_crashes :
    let crash := Failure.plain (.unforeseen "RuntimeError") "provider crashed"
    (crashing.embed 0 "hello" none).1 = .raised crash ∧
      (crashing.embedAll 0 ["hello"]).1 = .raised crash :=
  ⟨rfl, rfl⟩

end Time

end CodeAtlas.Embedder
