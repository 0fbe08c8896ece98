import CodeAtlas.Proofs.Circuit.History
import CodeAtlas.Proofs.Config.Standard
import CodeAtlas.Proofs.Embedding.Exchange

/-!
# A provider that fails is left alone

Tasks are performed one at a time, and time passes between them. From each failure that opened the
circuit on, the provider is not called until the whole cooldown is over; of the calls that fail one
after the other no more than the threshold come before that; and a failure after the cooldown opens
the circuit for another one. It makes no difference whether the calls are for single texts, for
groups or for the texts of a group that failed.

## Main results

`Embedder.Session.run_cooldown`, over every sequence of tasks and waits and every provider.

## Proof strategy

`call_charges` says what one call does to the circuit and to the record of the provider: the circuit
goes the way of a `Circuit.Session`. A session of an embedder keeps the calls that the circuit let
through in a log. `Session.Kept` says that the circuit has come from this log; `Performing.call`,
`Performing.step` and `Session.Kept.perform` carry it from a call to a step and to a task. The rest
is read off the log.
-/

namespace CodeAtlas

/-- The provider has answered. -/
def Exchange.good (x : Exchange) : Bool :=
  match x.ending with
  | .value _ => true
  | _ => false

/-- How long a call for a task may take, if the task says so. -/
def EmbeddingTask.limit : EmbeddingTask → Option Float
  | .one _ limit => limit
  | .many _ => none

namespace Embedder

variable {τ σ : Type}

/-- A call that the circuit let through, and when. -/
structure Passage (τ : Type) where
  time : τ
  /-- What the provider was asked and what it answered; nothing when the call was overdue before it was
  made. -/
  exchange : Option Exchange

namespace Passage

/-- The provider has answered. -/
def good (a : Passage τ) : Bool :=
  a.exchange.any (·.good)

/-- What the circuit sees of it. -/
def verdict (a : Passage τ) : Circuit.Verdict τ :=
  ⟨a.time, a.good⟩

end Passage

/-- When the circuit was opened, if nothing has closed it since, by the calls that it let through, the
last one first. -/
def openedAt? (threshold : Nat) (log : List (Passage τ)) : Option τ :=
  Circuit.openedAt? threshold 1 (log.map (·.verdict))

/-- The failure that opens the circuit, or opens it anew. -/
def Passage.Opens (threshold : Nat) (past : List (Passage τ)) (a : Passage τ) : Prop :=
  a.good = false ∧ openedAt? threshold (a :: past) = some a.time

/-- Calls reach the provider: there is one, and there is time to ask it. -/
def Asks (e : Embedder τ σ) (limit : Option Float) : Prop :=
  e.provider.isSome = true ∧ ¬ e.deadline limit ≤ 0

instance (e : Embedder τ σ) (limit : Option Float) : Decidable (e.Asks limit) :=
  inferInstanceAs (Decidable (_ ∧ _))

/-- The calls that the circuit let through in some work at a time, the last one first. Those that
reach the provider are in its record; the circuit has counted the others. -/
def passages (before after : Embedder τ (σ × List Exchange)) (now : τ) (limit : Option Float) :
    List (Passage τ) :=
  if before.Asks limit then
    ((after.record.drop before.record.length).map fun x => ⟨now, some x⟩).reverse
  else List.replicate (after.circuit.failures - before.circuit.failures) ⟨now, none⟩

section Time

set_option linter.unusedSectionVars false

variable [AddCommGroup τ] [LinearOrder τ] [IsOrderedAddMonoid τ]

/-- After this call the provider is left alone until a whole pause is over. -/
def Passage.Rests (pause : τ) (later : List (Passage τ)) (a : Passage τ) : Prop :=
  ∀ b ∈ later, a.time + pause ≤ b.time

/-- What happens to an embedder. -/
inductive Move (τ : Type) [AddCommGroup τ] [LinearOrder τ] where
  | embed (task : EmbeddingTask)
  /-- Time passes. -/
  | wait (span : {d : τ // 0 ≤ d})

/-- The calls of an embedder, with their times. -/
def callsFrom (now : τ) : List (Move τ) → List (EmbeddingCall τ)
  | [] => []
  | .embed task :: rest => { now, task } :: callsFrom now rest
  | .wait span :: rest => callsFrom (now + span) rest

/-- An embedder in use, its provider recorded. -/
structure Session (τ σ : Type) where
  now : τ
  embedder : Embedder τ (σ × List Exchange)
  /-- The calls that the circuit let through, the last one first. -/
  log : List (Passage τ) := []

namespace Session

/-- The session after a move. -/
def move (s : Session τ σ) : Move τ → Session τ σ
  | .embed task =>
    let embedder := (s.embedder.perform s.now task).2
    { s with embedder, log := passages s.embedder embedder s.now task.limit ++ s.log }
  | .wait span => { s with now := s.now + span }

/-- The session after some moves. -/
def run (s : Session τ σ) (moves : List (Move τ)) : Session τ σ :=
  moves.foldl move s

theorem embedder_run (s : Session τ σ) (moves : List (Move τ)) :
    (s.run moves).embedder = s.embedder.after (callsFrom s.now moves) := by
  induction moves generalizing s with
  | nil => rfl
  | cons m rest ih =>
    cases m with
    | embed task => exact ih (s.move (.embed task))
    | wait span => exact ih (s.move (.wait span))

end Session

/-! ### What one call does -/

/-- What a call does to the circuit and to the record of the provider. -/
inductive Charged (now : τ) (limit : Option Float) (e e' : Embedder τ (σ × List Exchange)) :
    Prop where
  /-- It is refused. -/
  | refused (circuit : e'.circuit = e.circuit.settled now) (record : e'.record = e.record)
  /-- It is overdue before it is made. -/
  | unasked (late : ¬ e.Asks limit) (through : (e.circuit.settled now).isOpen = false)
      (circuit : e'.circuit = (e.circuit.settled now).fail now) (record : e'.record = e.record)
  | asked (asks : e.Asks limit) (through : (e.circuit.settled now).isOpen = false) (x : Exchange)
      (circuit : e'.circuit = if x.good then (e.circuit.settled now).succeed
        else (e.circuit.settled now).fail now)
      (record : e'.record = e.record ++ [x])

section Calls

variable {now : τ} {limit : Option Float} {provider : Option (Provider σ)}
variable {e e' : Embedder τ (σ × List Exchange)} {texts : List String}

/-- With patience, only an answer counts as a success. -/
theorem heard_patient (e : Embedder τ σ) (patient : e.patience = none) (now : τ) (count : Nat)
    (deadline : Float) (x : Exchange) : (e.heard now count deadline x.ending).2 =
      { e with circuit := if x.good then e.circuit.succeed else e.circuit.fail now } := by
  obtain ⟨texts, ending⟩ := x
  cases ending with
  | value vectors =>
    simp only [heard]
    split <;> rfl
  | raised f => rfl
  | timedOut => rfl
  | never =>
    simp only [heard, giveUp_patient patient]
    rfl

theorem call_charges (records : e.Records provider) (patient : e.patience = none)
    {ending : Ending Failure (List (List Float))}
    (called : e.call now texts limit = (ending, e')) : Charged now limit e e' := by
  obtain rfl : (e.call now texts limit).2 = e' := congrArg Prod.snd called
  by_cases shut : e.Shut now
  · rw [call_shut shut]
    exact .refused rfl rfl
  have through : (e.circuit.settled now).isOpen = false := Bool.eq_false_iff.mpr shut
  cases given : e.provider with
  | none =>
    rw [call_unprovided shut given]
    exact .unasked (by simp [Asks, given]) through rfl rfl
  | some p =>
    by_cases late : e.deadline limit ≤ 0
    · rw [call_untimely shut given late]
      exact .unasked (fun asks => asks.2 late) through rfl rfl
    · rw [call_asked shut given late]
      rw [show e.provider = provider.map (·.recorded) from records, Option.map_eq_some_iff] at given
      obtain ⟨q, there, rfl⟩ := given
      let x : Exchange := ⟨texts, (q.answer e.state.1 texts).1⟩
      have heard := heard_patient { e.settle now with state := (q.recorded.answer e.state texts).2 }
        patient now texts.length (e.deadline limit) x
      exact .asked ⟨by simp [show e.provider = _ from records, there], late⟩ through x
        (congrArg (·.circuit) heard) (congrArg (·.record) heard)

end Calls

/-! ### Passages add up -/

section Passages

theorem Kin.asks_iff {e e' : Embedder τ σ} (kin : Kin e e') (limit : Option Float) :
    e'.Asks limit ↔ e.Asks limit := by
  simp only [Asks, deadline, kin.provider, kin.timeout]

variable {now : τ} {limit : Option Float} {before e e' : Embedder τ (σ × List Exchange)}

theorem passages_self (e : Embedder τ (σ × List Exchange)) (now : τ) (limit : Option Float) :
    passages e e now limit = [] := by
  simp [passages]

theorem passages_asked (asks : before.Asks limit) (longer : before.record.length ≤ e.record.length)
    {x : Exchange} (record : e'.record = e.record ++ [x]) :
    passages before e' now limit = ⟨now, some x⟩ :: passages before e now limit := by
  simp [passages, asks, record, List.drop_append_of_le_length longer]

theorem passages_unasked (late : ¬ before.Asks limit)
    (more : before.circuit.failures ≤ e.circuit.failures)
    (failures : e'.circuit.failures = e.circuit.failures + 1) :
    passages before e' now limit = ⟨now, none⟩ :: passages before e now limit := by
  rw [passages, passages, if_neg late, if_neg late, failures, Nat.sub_add_comm more,
    List.replicate_succ]

theorem passages_congr (record : e'.record = e.record)
    (failures : e'.circuit.failures = e.circuit.failures) :
    passages before e' now limit = passages before e now limit := by
  rw [passages, passages, record, failures]

end Passages

/-! ### What is kept -/

section Kept

variable {threshold : Nat} {pause : τ} {provider : Option (Provider σ)} {s : Session τ σ}

/-- The circuit has come from the log, and in the log is what the provider was asked. -/
structure Session.Kept (threshold : Nat) (pause : τ) (provider : Option (Provider σ))
    (s : Session τ σ) : Prop where
  records : s.embedder.Records provider
  patient : s.embedder.patience = none
  faithful : Circuit.Session.Faithful threshold 1 pause
    ⟨s.now, s.embedder.circuit, s.log.map (·.verdict)⟩
  recorded : s.log.reverse.filterMap (·.exchange) = s.embedder.record
  ordered : s.log.Pairwise fun later a => a.time ≤ later.time

namespace Session.Kept

variable {now : τ} {limit : Option Float} {log : List (Passage τ)}
variable {e e' : Embedder τ (σ × List Exchange)}

/-- What leaves the circuit and the record alone changes nothing, and no more does a look at the
circuit. -/
theorem congr (kept : Kept threshold pause provider ⟨now, e, log⟩) (kin : Kin e e')
    (patient : e'.patience = none) (record : e'.record = e.record)
    (circuit : e'.circuit = e.circuit ∨ e'.circuit = e.circuit.settled now) :
    Kept threshold pause provider ⟨now, e', log⟩ where
  records := kin.provider.trans kept.records
  patient := patient
  faithful := by
    obtain same | settled := circuit
    · simp only [same]
      exact kept.faithful
    · simp only [settled]
      exact kept.faithful.idle .look
  recorded := kept.recorded.trans record.symm
  ordered := kept.ordered

/-- A call that the circuit lets through goes into the log. -/
theorem pass (opens : 0 < threshold) (kept : Kept threshold pause provider ⟨now, e, log⟩)
    (kin : Kin e e') (patient : e'.patience = none)
    (through : (e.circuit.settled now).isOpen = false) (exchange : Option Exchange)
    (circuit : e'.circuit = if exchange.any (·.good) then (e.circuit.settled now).succeed
      else (e.circuit.settled now).fail now)
    (record : e'.record = e.record ++ exchange.toList) :
    Kept threshold pause provider ⟨now, e', ⟨now, exchange⟩ :: log⟩ where
  records := kin.provider.trans kept.records
  patient := patient
  faithful := by
    have looked := kept.faithful.idle .look
    cases good : exchange.any (·.good)
    · rw [good] at circuit
      simp only [circuit, List.map_cons, Passage.verdict, Passage.good, good]
      exact looked.finish opens Nat.one_pos through .failed
    · rw [good] at circuit
      simp only [circuit, List.map_cons, Passage.verdict, Passage.good, good]
      exact looked.finish opens Nat.one_pos through .succeeded
  recorded := by
    rw [record, ← kept.recorded]
    cases exchange <;> simp
  ordered := List.pairwise_cons.mpr
    ⟨fun a member => kept.faithful.past a.verdict (List.mem_map_of_mem member), kept.ordered⟩

end Session.Kept

/-- A task is being performed: what it has done so far is kept. -/
structure Performing (threshold : Nat) (pause : τ) (provider : Option (Provider σ)) (now : τ)
    (limit : Option Float) (log : List (Passage τ)) (before e : Embedder τ (σ × List Exchange)) :
    Prop where
  kept : Session.Kept threshold pause provider ⟨now, e, passages before e now limit ++ log⟩
  kin : Kin before e
  longer : before.record.length ≤ e.record.length
  more : ¬ before.Asks limit → before.circuit.failures ≤ e.circuit.failures

namespace Performing

variable {now : τ} {limit : Option Float} {log : List (Passage τ)}
variable {before e e' : Embedder τ (σ × List Exchange)}

theorem call (opens : 0 < threshold)
    (performing : Performing threshold pause provider now limit log before e)
    {texts : List String} {ending : Ending Failure (List (List Float))}
    (called : e.call now texts limit = (ending, e')) :
    Performing threshold pause provider now limit log before e' := by
  obtain ⟨kept, kin, longer, more⟩ := performing
  have kin' := kin_call called
  have patient := patience_call called kept.patient
  have asks := kin.asks_iff limit
  cases call_charges kept.records kept.patient called with
  | refused circuit record =>
    have failures : e'.circuit.failures = e.circuit.failures := by
      rw [circuit, Circuit.settled_failures]
    refine ⟨?_, kin.trans kin', by rwa [record], by rwa [failures]⟩
    rw [passages_congr record failures]
    exact kept.congr kin' patient record (.inr circuit)
  | unasked late through circuit record =>
    rw [asks] at late
    have failures : e'.circuit.failures = e.circuit.failures + 1 := by
      rw [circuit, ← Circuit.settled_failures e.circuit now]
      rfl
    refine ⟨?_, kin.trans kin', by rwa [record], fun late => ?_⟩
    · rw [passages_unasked late (more late) failures]
      exact kept.pass opens kin' patient through none circuit (by simpa using record)
    · have := more late
      omega
  | asked timely through x circuit record =>
    rw [asks] at timely
    refine ⟨?_, kin.trans kin', by simp [record]; omega, fun late => absurd timely late⟩
    rw [passages_asked timely longer record]
    exact kept.pass opens kin' patient through (some x) circuit record

theorem congr (performing : Performing threshold pause provider now limit log before e)
    (kin : Kin e e') (patient : e'.patience = none) (record : e'.record = e.record)
    (circuit : e'.circuit = e.circuit ∨ e'.circuit = e.circuit.settled now) :
    Performing threshold pause provider now limit log before e' := by
  obtain ⟨kept, first, longer, more⟩ := performing
  have failures : e'.circuit.failures = e.circuit.failures := by
    obtain same | settled := circuit
    · rw [same]
    · rw [settled, Circuit.settled_failures]
  refine ⟨?_, first.trans kin, by rwa [record], by rwa [failures]⟩
  rw [passages_congr record failures]
  exact kept.congr kin patient record circuit

theorem step (opens : 0 < threshold) {P : String → Prop} {served : List (String × Embedding)}
    (performing : Performing threshold pause provider now limit log before e)
    (step : Step P now limit e served e') :
    Performing threshold pause provider now limit log before e' := by
  have kin := step.kin
  have patient := step.steps.patient performing.kept.patient
  cases step with
  | answered sent called =>
    have after := performing.call opens called
    obtain ⟨cache, tally, same⟩ := keepAll_fields _ now _
    rw [same] at patient ⊢
    exact after.congr ⟨rfl, rfl, rfl, rfl⟩ patient rfl (.inl rfl)
  | failed missing sent called =>
    exact (performing.call opens called).congr ⟨rfl, rfl, rfl, rfl⟩ patient rfl (.inl rfl)
  | split sent called => exact performing.call opens called
  | settled => exact performing.congr kin patient rfl (.inr rfl)
  | _ => exact performing.congr kin patient rfl (.inl rfl)

end Performing

/-- A task makes its calls, whatever they are for, within the limit that it says. -/
theorem perform_within (e : Embedder τ σ) (now : τ) (task : EmbeddingTask) :
    Ends (fun _ => True) now task.limit e (fun _ _ => True) (e.perform now task) := by
  cases task with
  | one text limit =>
    exact (embed_ends now limit fun _ => trivial).map ([·]) fun _ _ _ => trivial
  | many texts =>
    exact (embedAll_ends now fun _ _ _ => trivial).after (.refl e) fun _ _ _ => trivial

namespace Session.Kept

/-- What is kept before a task is kept after it. -/
theorem perform (opens : 0 < threshold) (kept : s.Kept threshold pause provider)
    (task : EmbeddingTask) : (s.move (.embed task)).Kept threshold pause provider := by
  have start : Performing threshold pause provider s.now task.limit s.log s.embedder s.embedder := by
    refine ⟨?_, .refl _, le_rfl, fun _ => le_rfl⟩
    rw [passages_self]
    exact kept
  exact ((perform_within s.embedder s.now task).maintains start
    (fun step performing => performing.step opens step)
    fun called performing => performing.call opens called).kept

theorem run (opens : 0 < threshold) (kept : s.Kept threshold pause provider)
    (moves : List (Move τ)) : (s.run moves).Kept threshold pause provider := by
  induction moves generalizing s with
  | nil => exact kept
  | cons m rest ih =>
    refine ih ?_
    cases m with
    | embed task => exact kept.perform opens task
    | wait span =>
      exact { kept with faithful := kept.faithful.later (le_add_of_nonneg_right span.2) }

end Session.Kept

end Kept

/-! ### What the log says -/

section Log

variable {threshold : Nat} {log later row past : List (Passage τ)} {a b : Passage τ} {t : τ}

/-- A failure while the circuit is not closed opens it anew. -/
theorem opens_of_opened (opened : openedAt? threshold past = some t) (bad : a.good = false) :
    a.Opens threshold past := by
  refine ⟨bad, (Circuit.openedAt?_cons_of_opened opened).trans (if_pos ?_)⟩
  simpa [Passage.verdict] using bad

/-- A row of failures that leaves the circuit closed is short. -/
theorem length_row_lt (opens : 0 < threshold) (bad : ∀ a ∈ row, a.good = false)
    (closed : openedAt? threshold (row ++ past) = none) : row.length < threshold := by
  have few := Circuit.failuresInARow_lt opens closed
  rw [List.map_append, Circuit.failuresInARow, List.takeWhile_append_of_pos, List.length_append,
    List.length_map] at few
  · omega
  · intro v member
    obtain ⟨a, among, rfl⟩ := List.mem_map.mp member
    simpa [Passage.verdict] using bad a among

/-- If the circuit is opened during a row of failures, one of them opens it. -/
theorem exists_opens (closed : openedAt? threshold past = none) (bad : ∀ a ∈ row, a.good = false)
    (opened : openedAt? threshold (row ++ past) ≠ none) :
    ∃ after b before, row = after ++ b :: before ∧ openedAt? threshold (before ++ past) = none ∧
      b.Opens threshold (before ++ past) := by
  -- The last failure opens it if those before it have left it closed.
  induction row with
  | nil => exact absurd closed opened
  | cons a rest ih =>
    by_cases still : openedAt? threshold (rest ++ past) = none
    · have step : openedAt? threshold (a :: (rest ++ past)) = _ :=
        Circuit.openedAt?_cons_of_closed still
      refine ⟨[], a, rest, rfl, still, bad a List.mem_cons_self, step.trans (if_pos ?_)⟩
      by_contra short
      exact opened (step.trans (if_neg short))
    · obtain ⟨after, b, before, rfl, first, opens⟩ :=
        ih (fun b among => bad b (List.mem_cons_of_mem _ among)) still
      exact ⟨a :: after, b, before, rfl, first, opens⟩

/-- Nothing comes in the pause after an opening. -/
theorem Session.Kept.elapsed {pause : τ} {provider : Option (Provider σ)} {s : Session τ σ}
    (kept : s.Kept threshold pause provider) (split : s.log = later ++ past)
    (opened : openedAt? threshold past = some t) : ∀ a ∈ later, t + pause ≤ a.time := by
  have spaced := kept.faithful.spaced
  have ordered := kept.ordered
  rw [split] at ordered
  simp only [split, List.map_append] at spaced
  -- The call right after the opening waits for the pause, and those after it come no sooner.
  cases later using List.reverseRecOn with
  | nil => exact List.forall_mem_nil _
  | append_singleton rest first =>
    rw [List.map_append, List.append_assoc] at spaced
    have waited : t + pause ≤ first.time := spaced.elapsed opened
    rw [List.append_assoc, List.pairwise_append] at ordered
    refine List.forall_mem_append.mpr ⟨fun a member => ?_, List.forall_mem_singleton.mpr waited⟩
    exact waited.trans (ordered.2.2 a member first List.mem_cons_self)

end Log

/-- However an embedder is used, one task at a time: from a failure that opened the circuit the
provider is not called until the whole cooldown is over; of the failures in a row that find the
circuit closed, no more than the threshold come before that; and a failure after the cooldown opens
the circuit for another one. -/
theorem Session.run_cooldown (duration : Float → τ) (config : EmbeddingConfig)
    (opens : 0 < config.failureThreshold) (settings : Settings) (provider : Option (Provider σ))
    (state : σ) (start : τ) (moves : List (Move τ)) :
    let e := create duration config settings provider state
    let s := Session.run ⟨start, e.recorded, []⟩ moves
    let threshold := config.failureThreshold
    let cooldown := duration config.cooldownSeconds
    s.log.reverse.filterMap (·.exchange) = e.exchanges (callsFrom start moves) ∧
    ((e.after (callsFrom start moves)).circuit.settled s.now).phase =
      Circuit.standing threshold 1 cooldown s.now (s.log.map (·.verdict)) ∧
    (∀ (later : List (Passage τ)) a past, s.log = later ++ a :: past → a.Opens threshold past →
      a.Rests cooldown later) ∧
    (∀ later row past : List (Passage τ), s.log = later ++ row ++ past →
      openedAt? threshold past = none → (∀ a ∈ row, a.good = false) → threshold ≤ row.length →
      ∃ after a before, row = after ++ a :: before ∧ before.length < threshold ∧
        a.Opens threshold (before ++ past) ∧ a.Rests cooldown (later ++ after)) ∧
    ∀ (later : List (Passage τ)) a past t, s.log = later ++ a :: past →
      openedAt? threshold past = some t → a.good = false →
      t + cooldown ≤ a.time ∧ a.Opens threshold past ∧ a.Rests cooldown later := by
  intro e s threshold cooldown
  have fresh : Kept threshold cooldown provider ⟨start, e.recorded, []⟩ :=
    ⟨rfl, rfl, .fresh threshold 1 cooldown start, rfl, .nil⟩
  have kept : s.Kept threshold cooldown provider := fresh.run opens moves
  have embedder : s.embedder = e.recorded.after (callsFrom start moves) := embedder_run _ moves
  have plain : e.after (callsFrom start moves) = s.embedder.plain provider :=
    embedder ▸ plain_after (records_recorded e) _
  refine ⟨?_, ?_, ?_, ?_, ?_⟩
  · rw [kept.recorded, embedder]
    rfl
  · rw [plain]
    exact kept.faithful.reflects.phase_settled
  · intro later a past split opening
    exact kept.elapsed split opening.2
  · intro later row past split closed bad many
    obtain ⟨after, a, before, rfl, first, opening⟩ := exists_opens closed bad fun still =>
      absurd (length_row_lt opens bad still) (not_lt.mpr many)
    refine ⟨after, a, before, rfl, length_row_lt opens (fun b among => bad b ?_) first, opening,
      kept.elapsed (split.trans ?_) opening.2⟩
    · simp [among]
    · simp
  · intro later a past t split opened bad
    have opening := opens_of_opened opened bad
    have before : s.log = (later ++ [a]) ++ past := by simpa using split
    exact ⟨kept.elapsed before opened a (by simp), opening, kept.elapsed split opening.2⟩

/-- A group and its first text fail and open the circuit; the next failure, a cooldown later, opens
it anew. -/
theorem Session.run_cooldown_reopened :
    let config := { EngineConfig.standard.embeddings with failureThreshold := 2 }
    let provider : Provider Nat := {
      model := "flaky"
      answer := fun asked texts =>
        (if asked < 3 then .timedOut else .value (texts.map fun _ => [1]), asked + 1) }
    let e := create (fun _ => (60 : Int)) config Settings.standard provider 0
    let s := Session.run ⟨0, e.recorded, []⟩ [.embed (.many ["a", "b"]), .wait ⟨59, by decide⟩,
      .embed (.one "c" none), .wait ⟨1, by decide⟩, .embed (.one "c" none), .wait ⟨60, by decide⟩,
      .embed (.one "c" none)]
    0 < config.failureThreshold ∧
      s.log.map (fun a => (a.time, a.good)) = [(120, true), (60, false), (0, false), (0, false)] ∧
      ∀ (later : List (Passage Int)) a past, s.log = later ++ a :: past → a.Opens 2 past →
        a.Rests 60 later := by
  intro config provider e s
  have opens : 0 < config.failureThreshold := by decide
  obtain ⟨-, -, rests, -⟩ :=
    run_cooldown (fun _ => (60 : Int)) config opens Settings.standard provider 0 0
      [.embed (.many ["a", "b"]), .wait ⟨59, by decide⟩, .embed (.one "c" none),
        .wait ⟨1, by decide⟩, .embed (.one "c" none), .wait ⟨60, by decide⟩, .embed (.one "c" none)]
  exact ⟨opens, by decide +kernel, rests⟩

end Time

end Embedder

end CodeAtlas
