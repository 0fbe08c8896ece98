import CodeAtlas.Proofs.Cache
import CodeAtlas.Proofs.Circuit
import CodeAtlas.Proofs.Embedding.Call
import CodeAtlas.Proofs.Embedding.Normal
import CodeAtlas.Proofs.Slice

/-!
# How texts get their embeddings

Whatever an embedder is asked for, it goes through a few kinds of steps: a text is looked up, spared,
sent alone or in a group. Each step says which normalized texts get their embeddings by it. An
embedding of many texts gives each of them one embedding in this way, in whatever order, unless the
provider fails as nobody foresees or the whole operation is given up.

## Main results

`Embedder.embed_ends` and `Embedder.embedAll_ends` take embeddings apart into steps.
`Embedder.Steps.keeps` is the induction over them: what every step keeps of an embedder and the texts
that were served holds at the end.
-/

namespace CodeAtlas

namespace Embedder

variable {τ σ : Type}

/-- The same embedder, perhaps after some work. -/
structure Kin (e e' : Embedder τ σ) : Prop where
  config : e'.config = e.config
  provider : e'.provider = e.provider
  model : e'.model = e.model
  timeout : e'.timeout = e.timeout

theorem Kin.refl (e : Embedder τ σ) : Kin e e :=
  ⟨rfl, rfl, rfl, rfl⟩

theorem Kin.trans {e e' e'' : Embedder τ σ} (first : Kin e e') (second : Kin e' e'') :
    Kin e e'' :=
  ⟨second.config.trans first.config, second.provider.trans first.provider,
    second.model.trans first.model, second.timeout.trans first.timeout⟩

theorem Kin.normalize {e e' : Embedder τ σ} (kin : Kin e e') (text : String) :
    e'.normalize text = e.normalize text := by
  rw [Embedder.normalize, Embedder.normalize, kin.config]

theorem Kin.key {e e' : Embedder τ σ} (kin : Kin e e') (normalized : String) :
    e'.key normalized = e.key normalized := by
  rw [Embedder.key, Embedder.key, kin.model]

/-- The embedding that a vector of the provider makes. -/
def remote (e : Embedder τ σ) (vector : List Float) : Embedding :=
  ⟨.remote, vector, e.model⟩

/-- The embedding that stands in for one of the provider. -/
def feature (e : Embedder τ σ) (normalized : String) : Embedding :=
  Feature.embedding normalized e.config.fallbackDimensions

section Time

set_option linter.unusedSectionVars false

variable [Add τ] [Sub τ] [LE τ] [DecidableLE τ] [LT τ] [DecidableLT τ] [OfNat τ 0] {now : τ}

/-- What the cache holds for a normalized text. -/
def held? (e : Embedder τ σ) (now : τ) (normalized : String) : Option Embedding :=
  (e.cache.get now (e.key normalized)).1

/-- The embedder once a normalized text was looked up. -/
def look (e : Embedder τ σ) (now : τ) (normalized : String) : Embedder τ σ :=
  { e with cache := (e.cache.get now (e.key normalized)).2 }

/-- What becomes of a text whose call has ended in some way. -/
def conclude (e : Embedder τ σ) (now : τ) (normalized : String) :
    Ending Failure (List (List Float)) → Ending Failure Embedding × Embedder τ σ
  | .value vectors =>
    let (embedding, e) := e.keep now normalized (vectors.head?.getD [])
    (.value embedding, e)
  | .raised f =>
    if isForeseen f then (.value (e.feature normalized), (e.fallBack normalized).2)
    else (.raised f, e)
  | .timedOut => (.timedOut, e)
  | .never => (.never, e)

section One

variable {e : Embedder τ σ} {text : String} {limit : Option Float}

theorem embed_held {embedding : Embedding}
    (held : e.held? now (e.normalize text) = some embedding) :
    e.embed now text limit = (.value embedding, (e.look now (e.normalize text)).countHit) := by
  have found : (e.cache.get now (e.key (e.normalize text))).1 = some embedding := held
  simp only [embed, found]
  rfl

theorem embed_spared (missing : e.held? now (e.normalize text) = none)
    (stays : (e.provider.isNone || (e.normalize text).isEmpty) = true) :
    e.embed now text limit = (.value (e.feature (e.normalize text)),
      ((e.look now (e.normalize text)).fallBack (e.normalize text)).2) := by
  have found : (e.cache.get now (e.key (e.normalize text))).1 = none := missing
  simp only [embed, found, stays, if_true]
  rfl

theorem embed_sent (missing : e.held? now (e.normalize text) = none)
    (goes : ¬ (e.provider.isNone || (e.normalize text).isEmpty) = true) :
    e.embed now text limit =
      let called := (e.look now (e.normalize text)).call now [e.normalize text] limit
      called.2.conclude now (e.normalize text) called.1 := by
  have found : (e.cache.get now (e.key (e.normalize text))).1 = none := missing
  have sent : (e.provider.isNone || (e.normalize text).isEmpty) = false :=
    Bool.eq_false_iff.mpr goes
  simp only [embed, found, sent, Bool.false_eq_true, if_false]
  split
  all_goals
    next called =>
      simp only [look]
      rw [called]
      rfl

end One

/-- One step of an embedder at a time, and the normalized texts that get their embeddings by it. Only
texts that satisfy `P` are sent, and no call for them may take longer than `limit`. -/
inductive Step (P : String → Prop) (now : τ) (limit : Option Float) (e : Embedder τ σ) :
    List (String × Embedding) → Embedder τ σ → Prop where
  /-- A text is looked up. -/
  | looked (normalized : String) : Step P now limit e [] (e.look now normalized)
  /-- A text was looked up that the cache holds. -/
  | hit {normalized : String} {embedding : Embedding}
      (held : e.held? now normalized = some embedding) :
      Step P now limit e [(normalized, embedding)] (e.look now normalized).countHit
  /-- A text is not to be sent. -/
  | spared {normalized : String} (missing : e.held? now normalized = none)
      (stays : (e.provider.isNone || normalized.isEmpty) = true) :
      Step P now limit e [(normalized, e.feature normalized)] (e.fallBack normalized).2
  /-- The circuit is brought up to the time. -/
  | settled : Step P now limit e [] (e.settle now)
  /-- No text is sent while the circuit is open. -/
  | withheld {normalized : String} (missing : e.held? now normalized = none) (shut : e.Shut now) :
      Step P now limit e [(normalized, e.feature normalized)] (e.fallBack normalized).2
  /-- The provider sends a vector for each text of a call. -/
  | answered {texts : List String} {vectors : List (List Float)}
      {e' : Embedder τ σ} (sent : ∀ normalized ∈ texts, P normalized)
      (called : e.call now texts limit = (.value vectors, e')) :
      Step P now limit e
        ((texts.zip vectors).map fun (normalized, vector) => (normalized, e'.remote vector))
        (e'.keepAll now (texts.zip vectors)).2
  /-- The call for a text fails. -/
  | failed {normalized : String} {f : Failure} {e' : Embedder τ σ}
      (missing : e.held? now normalized = none) (sent : P normalized)
      (called : e.call now [normalized] limit = (.raised f, e')) (foreseen : isForeseen f = true) :
      Step P now limit e [(normalized, e'.feature normalized)] (e'.fallBack normalized).2
  /-- The call for a group fails; its texts have to be sent one by one. -/
  | split {texts : List String} {f : Failure} {e' : Embedder τ σ}
      (sent : ∀ normalized ∈ texts, P normalized)
      (called : e.call now texts limit = (.raised f, e')) (foreseen : isForeseen f = true) :
      Step P now limit e [] e'

/-- Some steps after each other. -/
inductive Steps (P : String → Prop) (now : τ) (limit : Option Float) :
    Embedder τ σ → List (String × Embedding) → Embedder τ σ → Prop where
  | refl (e : Embedder τ σ) : Steps P now limit e [] e
  | head {e e' e'' : Embedder τ σ} {served more : List (String × Embedding)}
      (first : Step P now limit e served e') (rest : Steps P now limit e' more e'') :
      Steps P now limit e (served ++ more) e''

variable {P : String → Prop} {limit : Option Float} {e e' e'' : Embedder τ σ}
variable {served more : List (String × Embedding)}

theorem Step.steps (step : Step P now limit e served e') : Steps P now limit e served e' := by
  simpa using Steps.head step (.refl e')

theorem Steps.trans (first : Steps P now limit e served e')
    (second : Steps P now limit e' more e'') : Steps P now limit e (served ++ more) e'' := by
  induction first with
  | refl => exact second
  | head step rest ih =>
    rw [List.append_assoc]
    exact .head step (ih second)

/-- What every step keeps of an embedder and the texts served so far holds at the end. -/
theorem Steps.keeps {I : Embedder τ σ → List (String × Embedding) → Prop}
    (done : List (String × Embedding)) (first : I e done)
    (step : ∀ {e e' : Embedder τ σ} {done served : List (String × Embedding)},
      Step P now limit e served e' → I e done → I e' (done ++ served))
    (steps : Steps P now limit e served e') : I e' (done ++ served) := by
  induction steps generalizing done with
  | refl => rwa [List.append_nil]
  | head one rest ih =>
    rw [← List.append_assoc]
    exact ih _ (step one first)

theorem Steps.maintains {I : Embedder τ σ → Prop} (first : I e)
    (step : ∀ {e e' : Embedder τ σ} {served : List (String × Embedding)},
      Step P now limit e served e' → I e → I e')
    (steps : Steps P now limit e served e') : I e' :=
  Steps.keeps (I := fun e _ => I e) [] first (fun one => step one) steps

/-- What every step serves as it should, from an embedder that every step keeps as it should be, is
served as it should. -/
theorem Steps.provides {I : Embedder τ σ → Prop} {Q : String × Embedding → Prop} (first : I e)
    (step : ∀ {e e' : Embedder τ σ} {served : List (String × Embedding)},
      Step P now limit e served e' → I e → I e' ∧ ∀ s ∈ served, Q s)
    (steps : Steps P now limit e served e') : ∀ s ∈ served, Q s := by
  refine (Steps.keeps (I := fun e done => I e ∧ ∀ s ∈ done, Q s) [] ⟨first, List.forall_mem_nil _⟩
    (fun one ⟨before, right⟩ => ?_) steps).2
  obtain ⟨after, new⟩ := step one before
  exact ⟨after, List.forall_mem_append.mpr ⟨right, new⟩⟩

/-! ### What a step leaves alone -/

theorem held?_look (e : Embedder τ σ) (normalized other : String) :
    (e.look now normalized).held? now other = e.held? now other :=
  Cache.get_get e.cache now _ _

theorem kin_call {texts : List String} {ending : Ending Failure (List (List Float))}
    (called : e.call now texts limit = (ending, e')) : Kin e e' := by
  cases call_cases called <;> exact ⟨rfl, rfl, rfl, rfl⟩

theorem cache_call {texts : List String} {ending : Ending Failure (List (List Float))}
    (called : e.call now texts limit = (ending, e')) : e'.cache = e.cache ∧ e'.tally = e.tally := by
  cases call_cases called <;> exact ⟨rfl, rfl⟩

theorem held?_call {texts : List String} {ending : Ending Failure (List (List Float))}
    (called : e.call now texts limit = (ending, e')) (normalized : String) :
    e'.held? now normalized = e.held? now normalized := by
  rw [held?, held?, (cache_call called).1, (kin_call called).key]

theorem keepAll_fields (e : Embedder τ σ) (now : τ) (sent : List (String × List Float)) :
    ∃ cache tally, (e.keepAll now sent).2 = { e with cache, tally } := by
  induction sent generalizing e with
  | nil => exact ⟨e.cache, e.tally, rfl⟩
  | cons first rest ih => exact ih (e.keep now first.1 first.2).2

theorem kin_keepAll (e : Embedder τ σ) (sent : List (String × List Float)) :
    Kin e (e.keepAll now sent).2 := by
  obtain ⟨cache, tally, same⟩ := keepAll_fields e now sent
  rw [same]
  exact ⟨rfl, rfl, rfl, rfl⟩

theorem mem_keepAll {sent : List (String × List Float)} {entry : Cache.Entry τ Embedding}
    (member : entry ∈ (e.keepAll now sent).2.cache.entries) :
    entry ∈ e.cache.entries ∨ ∃ s ∈ sent, entry.key = e.key s.1 ∧ entry.value = e.remote s.2 := by
  induction sent generalizing e with
  | nil => exact .inl member
  | cons first rest ih =>
    obtain old | ⟨s, among, made⟩ := ih (e := (e.keep now first.1 first.2).2) member
    · exact (Cache.mem_set old).imp_right fun new => ⟨first, List.mem_cons_self, new⟩
    · exact .inr ⟨s, List.mem_cons_of_mem _ among, made⟩

theorem keepAll_result (e : Embedder τ σ) (sent : List (String × List Float)) :
    (e.keepAll now sent).1 = sent.map fun (_, vector) => e.remote vector := by
  induction sent generalizing e with
  | nil => rfl
  | cons first rest ih => exact congrArg (e.remote first.2 :: ·) (ih _)

theorem Step.kin (step : Step P now limit e served e') : Kin e e' := by
  cases step with
  | answered sent called => exact (kin_call called).trans (kin_keepAll _ _)
  | failed missing sent called => exact .trans (kin_call called) ⟨rfl, rfl, rfl, rfl⟩
  | split sent called => exact kin_call called
  | _ => exact ⟨rfl, rfl, rfl, rfl⟩

theorem Steps.kin (steps : Steps P now limit e served e') : Kin e e' :=
  steps.maintains (I := Kin e) (.refl e) fun step kin => kin.trans step.kin

theorem Steps.patient (steps : Steps P now limit e served e') (patient : e.patience = none) :
    e'.patience = none := by
  refine steps.maintains (I := fun e => e.patience = none) patient fun step patient => ?_
  cases step with
  | answered sent called =>
    obtain ⟨cache, tally, same⟩ := keepAll_fields _ now _
    have after := patience_call called patient
    rwa [same]
  | failed missing sent called =>
    have after := patience_call called patient
    exact after
  | split sent called => exact patience_call called patient
  | _ => exact patient

/-- An entry was there before a step or is made of a vector that the provider answers with. -/
theorem Step.entries (step : Step P now limit e served e') {entry : Cache.Entry τ Embedding}
    (member : entry ∈ e'.cache.entries) : entry ∈ e.cache.entries ∨
      ∃ texts vectors e₁, (∀ normalized ∈ texts, P normalized) ∧
        e.call now texts limit = (.value vectors, e₁) ∧
        ∃ s ∈ texts.zip vectors, entry.key = e.key s.1 ∧ entry.value = e.remote s.2 := by
  cases step with
  | looked normalized => exact .inl (Cache.mem_get member)
  | hit held => exact .inl (Cache.mem_get member)
  | answered sent called =>
    have kin := kin_call called
    obtain old | ⟨s, among, atKey, value⟩ := mem_keepAll member
    · exact .inl ((cache_call called).1 ▸ old)
    · refine .inr ⟨_, _, _, sent, called, s, among, atKey.trans (kin.key _), ?_⟩
      rw [value, remote, remote, kin.model]
  | failed missing sent called => exact .inl ((cache_call called).1 ▸ member)
  | split sent called => exact .inl ((cache_call called).1 ▸ member)
  | _ => exact .inl member

/-! ### How an embedding ends -/

/-- What an embedding comes to. Its steps serve the texts that they have to serve, unless they break
off with a call that fails as nobody foresees or is given up. -/
inductive Ends (P : String → Prop) (now : τ) (limit : Option Float) (e : Embedder τ σ) {α : Type}
    (serves : α → List (String × Embedding) → Prop) : Ending Failure α × Embedder τ σ → Prop where
  | served {a : α} {served : List (String × Embedding)} {e' : Embedder τ σ}
      (steps : Steps P now limit e served e') (right : serves a served) :
      Ends P now limit e serves (.value a, e')
  | crashed {served : List (String × Embedding)} {e₁ e' : Embedder τ σ} {texts : List String}
      {f : Failure} (steps : Steps P now limit e served e₁)
      (sent : ∀ normalized ∈ texts, P normalized)
      (called : e₁.call now texts limit = (.raised f, e')) (unforeseen : isForeseen f = false) :
      Ends P now limit e serves (.raised f, e')
  | abandoned {served : List (String × Embedding)} {e₁ e' : Embedder τ σ} {texts : List String}
      (steps : Steps P now limit e served e₁)
      (sent : ∀ normalized ∈ texts, P normalized)
      (called : e₁.call now texts limit = (.never, e')) : Ends P now limit e serves (.never, e')

theorem Ends.after {α : Type} {serves serves' : α → List (String × Embedding) → Prop}
    {out : Ending Failure α × Embedder τ σ} (steps : Steps P now limit e served e')
    (ends : Ends P now limit e' serves out)
    (widen : ∀ a more, serves a more → serves' a (served ++ more)) :
    Ends P now limit e serves' out := by
  cases ends with
  | served rest right => exact .served (steps.trans rest) (widen _ _ right)
  | crashed rest sent called unforeseen => exact .crashed (steps.trans rest) sent called unforeseen
  | abandoned rest sent called => exact .abandoned (steps.trans rest) sent called

theorem Ends.map {α β : Type} {serves : α → List (String × Embedding) → Prop}
    {serves' : β → List (String × Embedding) → Prop} {out : Ending Failure α × Embedder τ σ}
    (f : α → β) (ends : Ends P now limit e serves out)
    (widen : ∀ a served, serves a served → serves' (f a) served) :
    Ends P now limit e serves' (out.map (·.map f) id) := by
  cases ends with
  | served steps right => exact .served steps (widen _ _ right)
  | crashed steps sent called unforeseen => exact .crashed steps sent called unforeseen
  | abandoned steps sent called => exact .abandoned steps sent called

/-- With patience, and when the provider fails in foreseen ways only, texts are served. -/
theorem Ends.isServed {α : Type} {serves : α → List (String × Embedding) → Prop}
    {out : Ending Failure α × Embedder τ σ} (ends : Ends P now limit e serves out)
    (patient : e.patience = none)
    (foreseen : ∀ p, e.provider = some p → ∀ state texts f,
      (p.answer state texts).1 = .raised f → isForeseen f = true) :
    ∃ a served e', out = (.value a, e') ∧ Steps P now limit e served e' ∧ serves a served := by
  cases ends with
  | served steps right => exact ⟨_, _, _, rfl, steps, right⟩
  | crashed steps sent called unforeseen =>
    obtain ⟨p, given, raised⟩ := raised_of_call called unforeseen
    rw [foreseen p (steps.kin.provider.symm.trans given) _ _ _ raised] at unforeseen
    cases unforeseen
  | abandoned steps sent called =>
    exact absurd (steps.patient patient) (impatient_of_call called)

/-- What every step and every call keeps of an embedder holds at the end. -/
theorem Ends.maintains {α : Type} {serves : α → List (String × Embedding) → Prop}
    {out : Ending Failure α × Embedder τ σ} (ends : Ends P now limit e serves out)
    {I : Embedder τ σ → Prop} (first : I e)
    (step : ∀ {e e' : Embedder τ σ} {served : List (String × Embedding)},
      Step P now limit e served e' → I e → I e')
    (call : ∀ {e e' : Embedder τ σ} {texts : List String}
      {ending : Ending Failure (List (List Float))},
      e.call now texts limit = (ending, e') → I e → I e') : I out.2 := by
  cases ends with
  | served steps right => exact steps.maintains first step
  | crashed steps sent called => exact call called (steps.maintains first step)
  | abandoned steps sent called => exact call called (steps.maintains first step)

theorem Ends.kin {α : Type} {serves : α → List (String × Embedding) → Prop}
    {out : Ending Failure α × Embedder τ σ} (ends : Ends P now limit e serves out) : Kin e out.2 :=
  ends.maintains (I := Kin e) (.refl e) (fun step kin => kin.trans step.kin)
    fun called kin => kin.trans (kin_call called)

theorem embed_ends (now : τ) (limit : Option Float) {text : String}
    (sent : e.normalize text ≠ "" → P (e.normalize text)) :
    Ends P now limit e (fun embedding served => served = [(e.normalize text, embedding)])
      (e.embed now text limit) := by
  cases held : e.held? now (e.normalize text) with
  | some embedding =>
    rw [embed_held held]
    exact .served (Step.hit held).steps rfl
  | none =>
    have looked : Steps P now limit e [] (e.look now (e.normalize text)) := (Step.looked _).steps
    have still : (e.look now (e.normalize text)).held? now (e.normalize text) = none :=
      (held?_look e _ _).trans held
    by_cases stays : (e.provider.isNone || (e.normalize text).isEmpty) = true
    · rw [embed_spared held stays]
      exact .served (looked.trans (Step.spared still stays).steps) rfl
    have some_ : e.normalize text ≠ "" := fun empty => stays (by simp [empty])
    have alone : ∀ n ∈ [e.normalize text], P n := List.forall_mem_singleton.mpr (sent some_)
    rw [embed_sent held stays]
    cases called : (e.look now (e.normalize text)).call now [e.normalize text] limit with
    | mk ending e' =>
      cases ending with
      | value vectors =>
        -- An answer for one text has one vector.
        obtain ⟨vector, rfl⟩ := List.length_eq_one_iff.mp (length_of_call called)
        exact .served (looked.trans (Step.answered alone called).steps) rfl
      | raised f =>
        simp only [conclude]
        split
        next foreseen =>
          exact .served (looked.trans (Step.failed still (sent some_) called foreseen).steps) rfl
        next unforeseen => exact .crashed looked alone called (Bool.eq_false_iff.mpr unforeseen)
      | timedOut => exact absurd called call_ne_timedOut
      | never => exact .abandoned looked alone called

/-- The texts with filled slots, and their embeddings. -/
def filled : List String → List (Option Embedding) → List (String × Embedding)
  | text :: texts, some embedding :: slots => (text, embedding) :: filled texts slots
  | _ :: texts, none :: slots => filled texts slots
  | _, _ => []

theorem fill_perm : ∀ (texts : List String) (slots : List (Option Embedding))
    (found : List Embedding), slots.length = texts.length →
      found.length = (unfilled texts slots).length →
      (fill slots found).length = texts.length ∧
        (filled texts slots ++ (unfilled texts slots).zip found).Perm (texts.zip (fill slots found))
  | [], [], found, _, enough => by
    rw [List.length_eq_zero_iff.mp enough]
    exact ⟨rfl, .nil⟩
  | text :: texts, some embedding :: slots, found, same, enough => by
    obtain ⟨length, perm⟩ := fill_perm texts slots found (Nat.succ.inj same) enough
    exact ⟨congrArg Nat.succ length, perm.cons _⟩
  | text :: texts, none :: slots, [], _, enough => by simp [unfilled] at enough
  -- An open slot takes the next embedding that was found.
  | text :: texts, none :: slots, embedding :: found, same, enough => by
    obtain ⟨length, perm⟩ := fill_perm texts slots found (Nat.succ.inj same) (Nat.succ.inj enough)
    exact ⟨congrArg Nat.succ length, List.perm_middle.trans (perm.cons _)⟩

theorem unfilled_subset : ∀ (texts : List String) (slots : List (Option Embedding)),
    unfilled texts slots ⊆ texts
  | [], _ => by simp [unfilled]
  | text :: texts, [] => by simp [unfilled]
  | text :: texts, some _ :: slots =>
    List.subset_cons_of_subset text (unfilled_subset texts slots)
  | text :: texts, none :: slots => List.cons_subset_cons text (unfilled_subset texts slots)

/-- What looking up texts comes to. -/
structure LookedUp (P : String → Prop) (now : τ) (e : Embedder τ σ) (texts : List String)
    (out : List (Option Embedding) × Embedder τ σ) : Prop where
  steps : Steps P now none e (filled texts out.1) out.2
  length : out.1.length = texts.length
  held : ∀ other, out.2.held? now other = e.held? now other
  missing : ∀ normalized ∈ unfilled texts out.1, normalized ≠ "" ∧ e.held? now normalized = none

theorem lookUpAll_steps (now : τ) (e : Embedder τ σ) (texts : List String) :
    LookedUp P now e texts (e.lookUpAll now texts) := by
  induction texts generalizing e with
  | nil => exact ⟨.refl e, rfl, fun _ => rfl, List.forall_mem_nil _⟩
  | cons normalized rest ih =>
    simp only [lookUpAll]
    -- A look drops expired entries only, so the later texts find what was held before.
    have look (other : String) : (e.look now normalized).held? now other = e.held? now other :=
      held?_look e normalized other
    split
    next embedding held =>
      have later := ih (e.look now normalized).countHit
      exact ⟨(Step.hit held).steps.trans later.steps, congrArg Nat.succ later.length,
        fun other => (later.held other).trans (look other),
        fun n member => (later.missing n member).imp_right (look n).symm.trans⟩
    next missing =>
      have looked : Steps P now none e [] (e.look now normalized) := (Step.looked normalized).steps
      split
      next stays =>
        have later := ih ((e.look now normalized).fallBack normalized).2
        have spared : Steps P now none (e.look now normalized) _ _ :=
          (Step.spared ((look normalized).trans missing) stays).steps
        exact ⟨looked.trans (spared.trans later.steps), congrArg Nat.succ later.length,
          fun other => (later.held other).trans (look other),
          fun n member => (later.missing n member).imp_right (look n).symm.trans⟩
      next goes =>
        have later := ih (e.look now normalized)
        have some_ : normalized ≠ "" := by
          intro empty
          simp [empty] at goes
        exact ⟨looked.trans later.steps, congrArg Nat.succ later.length,
          fun other => (later.held other).trans (look other),
          List.forall_mem_cons.mpr ⟨⟨some_, missing⟩, fun n member =>
            (later.missing n member).imp_right (look n).symm.trans⟩⟩

theorem fallBackAll_steps {texts : List String} (shut : e.Shut now)
    (missing : ∀ normalized ∈ texts, e.held? now normalized = none) :
    Steps P now none e (texts.zip (e.fallBackAll texts).1) (e.fallBackAll texts).2 ∧
      (e.fallBackAll texts).1.length = texts.length := by
  induction texts generalizing e with
  | nil => exact ⟨.refl e, rfl⟩
  | cons normalized rest ih =>
    obtain ⟨first, others⟩ := List.forall_mem_cons.mp missing
    obtain ⟨later, length⟩ := ih (e := (e.fallBack normalized).2) shut others
    exact ⟨(Step.withheld first shut).steps.trans later, congrArg Nat.succ length⟩

/-- The texts got these embeddings, in order. -/
def Serves (texts : List String) (found : List Embedding) (served : List (String × Embedding)) :
    Prop :=
  found.length = texts.length ∧ served = texts.zip found

theorem Serves.cons {text : String} {texts : List String} {embedding : Embedding}
    {found : List Embedding} {served : List (String × Embedding)}
    (serves : Serves texts found served) :
    Serves (text :: texts) (embedding :: found) ([(text, embedding)] ++ served) :=
  ⟨congrArg Nat.succ serves.1, congrArg ((text, embedding) :: ·) serves.2⟩

theorem Serves.append {texts texts' : List String} {found found' : List Embedding}
    (first : Serves texts found served) (second : Serves texts' found' more) :
    Serves (texts ++ texts') (found ++ found') (served ++ more) := by
  refine ⟨?_, ?_⟩
  · rw [List.length_append, List.length_append, first.1, second.1]
  · rw [first.2, second.2, List.zip_append first.1.symm]

theorem embedEach_ends (now : τ) {texts : List String}
    (sent : ∀ text ∈ texts, e.normalize text ≠ "" → P (e.normalize text)) :
    Ends P now none e (Serves (texts.map e.normalize)) (e.embedEach now texts) := by
  induction texts generalizing e with
  | nil => exact .served (.refl e) ⟨rfl, rfl⟩
  | cons text rest ih =>
    obtain ⟨first, others⟩ := List.forall_mem_cons.mp sent
    have one := embed_ends now none first
    simp only [embedEach]
    generalize e.embed now text none = outcome at one ⊢
    cases one with
    | @served embedding _ e' steps right =>
      subst right
      have same : e'.normalize = e.normalize := funext steps.kin.normalize
      have later := ih (e := e') (by rwa [same])
      rw [same] at later
      simp only
      generalize e'.embedEach now rest = outcome at later ⊢
      cases later with
      | served more right => exact .served (steps.trans more) right.cons
      | crashed more sent called unforeseen =>
        exact .crashed (steps.trans more) sent called unforeseen
      | abandoned more sent called => exact .abandoned (steps.trans more) sent called
    | crashed steps sent called unforeseen => exact .crashed steps sent called unforeseen
    | abandoned steps sent called => exact .abandoned steps sent called

/-- The texts of a group are in normal form, so they stay what they are when each is sent alone. -/
theorem embedGroup_ends (now : τ) {group : List String} (sent : ∀ normalized ∈ group, P normalized)
    (normal : ∀ normalized ∈ group, e.normalize normalized = normalized) :
    Ends P now none e (Serves group) (e.embedGroup now group) := by
  simp only [embedGroup]
  split
  next vectors e' called =>
    -- Each text is paired with the vector at its own position.
    have length := length_of_call called
    refine .served (Step.answered sent called).steps ⟨?_, ?_⟩
    · rw [keepAll_result, List.length_map, List.length_zip, length, Nat.min_self]
    · have texts : (group.zip vectors).map Prod.fst = group := List.map_fst_zip length.ge
      calc (group.zip vectors).map (fun (normalized, vector) => (normalized, e'.remote vector))
        _ = ((group.zip vectors).map Prod.fst).zip
              ((group.zip vectors).map fun (_, vector) => e'.remote vector) := by
          rw [List.zip_map']
        _ = group.zip (e'.keepAll now (group.zip vectors)).1 := by rw [texts, keepAll_result]
  next f e' called =>
    split
    next foreseen =>
      -- What is sent alone is normalized once more.
      have same : group.map e'.normalize = group := by
        refine (List.map_congr_left fun n member => ?_).trans (List.map_id group)
        exact ((kin_call called).normalize n).trans (normal n member)
      have each : Ends P now none e' (Serves (group.map e'.normalize)) (e'.embedEach now group) :=
        embedEach_ends now fun n member _ => by
          rw [(kin_call called).normalize, normal n member]
          exact sent n member
      rw [same] at each
      exact each.after (Step.split sent called foreseen).steps fun found more right => right
    next unforeseen => exact .crashed (.refl e) sent called (Bool.eq_false_iff.mpr unforeseen)
  next e' called => exact absurd called call_ne_timedOut
  next e' called => exact .abandoned (.refl e) sent called

theorem embedGroups_ends (now : τ) {groups : List (List String)}
    (sent : ∀ normalized ∈ groups.flatten, P normalized)
    (normal : ∀ normalized ∈ groups.flatten, e.normalize normalized = normalized) :
    Ends P now none e (Serves groups.flatten) (e.embedGroups now groups) := by
  induction groups generalizing e with
  | nil => exact .served (.refl e) ⟨rfl, rfl⟩
  | cons group rest ih =>
    simp only [List.flatten_cons, List.forall_mem_append] at sent normal
    have one := embedGroup_ends now sent.1 normal.1
    simp only [embedGroups]
    generalize e.embedGroup now group = outcome at one ⊢
    cases one with
    | @served found _ e' steps right =>
      have later := ih (e := e') sent.2 fun n member =>
        (steps.kin.normalize n).trans (normal.2 n member)
      simp only
      generalize e'.embedGroups now rest = outcome at later ⊢
      cases later with
      | served more right' => exact .served (steps.trans more) (right.append right')
      | crashed more sent called unforeseen =>
        exact .crashed (steps.trans more) sent called unforeseen
      | abandoned more sent called => exact .abandoned (steps.trans more) sent called
    | crashed steps sent called unforeseen => exact .crashed steps sent called unforeseen
    | abandoned steps sent called => exact .abandoned steps sent called

/-- Embeds normalized texts that the cache does not hold. -/
def embedPending (e : Embedder τ σ) (now : τ) (pending : List String) :
    Ending Failure (List Embedding) × Embedder τ σ :=
  if pending.isEmpty then (.value [], e)
  else if e.Shut now then ((e.settle now).fallBackAll pending).map .value id
  else (e.settle now).embedGroups now (Slice.groups e.config.batchSize pending)

theorem embedAll_eq (e : Embedder τ σ) (now : τ) (texts : List String) :
    e.embedAll now texts =
      let looked := e.lookUpAll now (texts.map e.normalize)
      (looked.2.embedPending now (unfilled (texts.map e.normalize) looked.1)).map
        (·.map (fill looked.1)) id := by
  simp only [embedAll, embedPending]
  generalize e.lookUpAll now (texts.map e.normalize) = looked
  obtain ⟨slots, e'⟩ := looked
  simp only
  split
  · rfl
  · split
    next opened =>
      rw [if_pos (by exact opened)]
      rfl
    next through =>
      rw [if_neg (by exact through)]
      simp only [settle]
      generalize embedGroups _ now _ = outcome
      obtain ⟨ending, e''⟩ := outcome
      cases ending <;> rfl

theorem embedPending_ends (now : τ) {pending : List String}
    (sent : ∀ normalized ∈ pending, P normalized)
    (normal : ∀ normalized ∈ pending, e.normalize normalized = normalized)
    (missing : ∀ normalized ∈ pending, e.held? now normalized = none) :
    Ends P now none e (fun found served => 0 < e.config.batchSize → Serves pending found served)
      (e.embedPending now pending) := by
  have settled : Steps P now none e [] (e.settle now) := Step.settled.steps
  simp only [embedPending]
  split
  next nothing =>
    rw [List.isEmpty_iff.mp nothing]
    exact .served (.refl e) fun _ => ⟨rfl, rfl⟩
  · split
    next shut =>
      -- The circuit was brought up to the time, and it is still open when it is asked again.
      have stays : (e.settle now).Shut now := by
        rw [Shut, settle, Circuit.settled_settled]
        exact shut
      obtain ⟨withheld, enough⟩ := fallBackAll_steps (P := P) stays missing
      exact .served (settled.trans withheld) fun _ => ⟨enough, rfl⟩
    next through =>
      have groups : Ends P now none (e.settle now)
          (Serves (Slice.groups e.config.batchSize pending).flatten) _ :=
        embedGroups_ends now (fun n member => sent n (Slice.mem_groups member))
          (fun n member => normal n (Slice.mem_groups member))
      refine groups.after settled fun found more right positive => ?_
      rwa [Slice.flatten_groups positive] at right

/-- Every normalized text gets one embedding, in whatever order. -/
def ServesAll (normalized : List String) (found : List Embedding)
    (served : List (String × Embedding)) : Prop :=
  found.length = normalized.length ∧ served.Perm (normalized.zip found)

theorem embedAll_ends (now : τ) {texts : List String}
    (sent : ∀ text ∈ texts, e.normalize text ≠ "" → P (e.normalize text)) :
    Ends P now none e (fun found served => 0 < e.config.batchSize →
      ServesAll (texts.map e.normalize) found served) (e.embedAll now texts) := by
  have looked := lookUpAll_steps (P := P) now e (texts.map e.normalize)
  rw [embedAll_eq]
  generalize e.lookUpAll now (texts.map e.normalize) = outcome at looked ⊢
  obtain ⟨slots, e'⟩ := outcome
  obtain ⟨steps, length, held, missing⟩ := looked
  -- A text is left open only when it is not empty, so it may be sent.
  have each : ∀ n ∈ unfilled (texts.map e.normalize) slots, P n ∧ e'.normalize n = n := by
    intro n waits
    obtain ⟨text, among, rfl⟩ := List.mem_map.mp (unfilled_subset _ _ waits)
    rw [steps.kin.normalize]
    exact ⟨sent text among (missing _ waits).1, Feature.normalize_normalize _ text⟩
  have pending := embedPending_ends (P := P) (e := e') now (fun n waits => (each n waits).1)
    (fun n waits => (each n waits).2) fun n waits => (held n).trans (missing n waits).2
  refine (pending.after steps fun found more right => ?_).map (fill slots) fun found served right =>
    right
  intro positive
  -- What was found for the texts that were pending goes into the open slots.
  have rest := right (steps.kin.config ▸ positive)
  obtain ⟨filledAll, perm⟩ := fill_perm _ _ _ length rest.1
  exact ⟨filledAll, rest.2 ▸ perm⟩

end Time

end Embedder

end CodeAtlas
