import CodeAtlas.Proofs.Config.Standard
import CodeAtlas.Proofs.Embedding.Step
import CodeAtlas.Proofs.Number.Order

/-!
# When a failed group leaves its texts to the provider

A group that fails is sent again text by text, but its failure is charged to the circuit before. As
long as the circuit stays closed every text gets the vector of the provider. A text that the cache
does not hold sets the count of failures back when it is sent alone; so the count only grows with
groups, one after the other, that bring no new text, and with the group after them.

## Main results

`Embedder.embedAll_retries`: the provider embeds every text that is not empty, when the circuit does
not pause or no such row of groups is as long as the threshold. `Embedder.embedAll_charged`: with a
threshold of one failure, a single group that fails costs its texts the provider.

## Proof strategy

`Embedder.Standing` is what holds between two calls: which keys the cache may hold, and a bound on the
failures in a row. Each of `Standing.embed`, `Standing.embedEach` and `Standing.embedGroup` says how
far it moves that bound; `Standing.embedGroups` is the induction over the groups.
-/

namespace CodeAtlas

namespace Circuit

variable {τ : Type} [Sub τ] [LT τ] [DecidableLT τ] [OfNat τ 0] {now : τ}
variable {limits : Limits τ} {failures more : Nat} {c : Circuit τ}

/-- A circuit with such limits that opens lets trials through at once. -/
def Limits.Restless (limits : Limits τ) (now : τ) : Prop :=
  (settled ⟨limits, .opened now, 0⟩ now).isOpen = false

/-- The circuit lets calls through, after so many failures in a row at most. -/
def Bears (limits : Limits τ) (now : τ) (failures : Nat) (c : Circuit τ) : Prop :=
  c.limits = limits ∧ ((limits.Restless now ∧ (c.settled now).isOpen = false) ∨
    (c.phase = .closed ∧ c.failures ≤ failures))

theorem Bears.mono (bears : Bears limits now failures c) (le : failures ≤ more) :
    Bears limits now more c :=
  ⟨bears.1, bears.2.imp_right fun closed => ⟨closed.1, closed.2.trans le⟩⟩

theorem Bears.through (bears : Bears limits now failures c) : (c.settled now).isOpen = false := by
  obtain ⟨-, ⟨-, through⟩ | ⟨closed, -⟩⟩ := bears
  · exact through
  · rw [settled_closed closed, isOpen, closed]

theorem Bears.settled (bears : Bears limits now failures c) :
    Bears limits now failures (c.settled now) := by
  obtain ⟨same, ⟨restless, through⟩ | ⟨closed, few⟩⟩ := bears
  · exact ⟨(settled_limits c now).trans same, .inl ⟨restless, by rwa [settled_settled]⟩⟩
  · rw [settled_closed closed]
    exact ⟨same, .inr ⟨closed, few⟩⟩

theorem Bears.succeed (bears : Bears limits now failures c) (notOpen : c.isOpen = false) :
    Bears limits now 0 c.succeed := by
  obtain ⟨same, ⟨restless, through⟩ | ⟨closed, few⟩⟩ := bears
  · refine ⟨?_, .inl ⟨restless, not_open_succeed notOpen⟩⟩
    simp only [Circuit.succeed]
    split
    · split <;> exact same
    · exact same
  · refine ⟨?_, .inr ?_⟩ <;> simp [Circuit.succeed, closed, same]

theorem Limits.Restless.through (restless : limits.Restless now) {c : Circuit τ}
    (same : c.limits = limits) (opened : c.phase = .opened now) :
    (c.settled now).isOpen = false := by
  obtain ⟨given, phase, failures⟩ := c
  obtain rfl : given = limits := same
  obtain rfl : phase = .opened now := opened
  -- How long a circuit waits does not depend on its failures.
  have waits : retryAfter ⟨given, .opened now, failures⟩ now =
      retryAfter ⟨given, .opened now, 0⟩ now := rfl
  simp only [Limits.Restless, Circuit.settled, waits] at restless ⊢
  split
  next waiting => simp [waiting, isOpen] at restless
  · rfl

theorem Bears.fail (bears : Bears limits now failures c) (notOpen : c.isOpen = false)
    {threshold : Nat} (given : limits.failures = .whole threshold)
    (room : limits.Restless now ∨ failures + 1 < threshold) :
    Bears limits now (failures + 1) (c.fail now) := by
  obtain ⟨rfl, state⟩ := bears
  by_cases restless : c.limits.Restless now
  · -- Whether it opens or not, calls go through.
    refine ⟨rfl, .inl ⟨restless, ?_⟩⟩
    obtain opened | same := phase_fail c now
    · exact restless.through rfl opened
    · refine not_open_settled ?_
      rwa [isOpen, same]
  · -- It stays closed, because there are too few failures.
    obtain ⟨closed, few⟩ := state.resolve_left fun state => restless state.1
    have fewer := room.resolve_left restless
    have below : ¬ c.limits.failures ≤ .whole (c.failures + 1 : Nat) := by
      rw [given, Number.Scalar.whole_le_whole]
      omega
    refine ⟨rfl, .inr ⟨?_, Nat.succ_le_succ few⟩⟩
    simp only [Circuit.fail, closed, decide_eq_true_eq, if_neg below]

end Circuit

/-- Groups bring something new often enough: not so many of them, one after the other, are of several
keys and have been seen before, but for the last of them. -/
def Renews (limit : Nat) (groups : List (List String)) : Prop :=
  ∀ before run last after, groups = before ++ run ++ last :: after →
    (∀ group ∈ run, 2 ≤ group.length ∧ group ⊆ before.flatten) → 2 ≤ last.length →
    run.length + 1 < limit

theorem renews_of_nodup {limit : Nat} (several : 2 ≤ limit) {groups : List (List String)}
    (nodup : groups.flatten.Nodup) : Renews limit groups := by
  rintro before run last after rfl known -
  cases run with
  | nil => exact several
  | cons group rest =>
    -- A group of the row would repeat a key of an earlier group.
    obtain ⟨long, old⟩ := known group List.mem_cons_self
    obtain ⟨key, member⟩ := List.exists_mem_of_length_pos (by omega : 0 < group.length)
    rw [List.append_assoc, List.flatten_append] at nodup
    have apart := (List.nodup_append.mp nodup).2.2 key (old member) key
    exact absurd rfl (apart (by simp [member]))

namespace Embedder

variable {τ σ : Type}

theorem map_zip_fst {α β γ : Type} (f : α → γ) {xs : List α} {ys : List β}
    (length : ys.length = xs.length) : (xs.zip ys).map (fun s => f s.1) = xs.map f :=
  calc (xs.zip ys).map (f ∘ Prod.fst)
    _ = ((xs.zip ys).map Prod.fst).map f := List.map_map.symm
    _ = xs.map f := by rw [List.map_fst_zip length.ge]

/-- The provider answers every single text, and fails in foreseen ways only. -/
structure TakesOne (p : Provider σ) : Prop where
  one : ∀ state text, ∃ vector, (p.answer state [text]).1 = .value [vector]
  foreseen : ∀ state texts f, (p.answer state texts).1 = .raised f → isForeseen f = true

section Time

set_option linter.unusedSectionVars false

variable [Add τ] [Sub τ] [LE τ] [DecidableLE τ] [LT τ] [DecidableLT τ] [OfNat τ 0] {now : τ}

/-- What holds between two calls of the provider: it can be called, after so many failures in a row at
most, and the cache holds what it answered for some keys. -/
structure Standing (p : Provider σ) (now : τ) (start : Embedder τ σ) (seen : List String)
    (failures : Nat) (e : Embedder τ σ) : Prop where
  kin : Kin start e
  patient : e.patience = none
  bears : Circuit.Bears start.circuit.limits now failures e.circuit
  cached : ∀ entry ∈ e.cache.entries, entry.key ∈ seen ∧ entry.value.source = .remote

/-- Calls reach the provider in time. -/
structure Reached (p : Provider σ) (e : Embedder τ σ) : Prop where
  provided : e.provider = some p
  timely : ¬ e.timeout ≤ 0

/-- As many embeddings by the provider. -/
def AllRemote (count : Nat) (found : List Embedding) : Prop :=
  found.length = count ∧ ∀ embedding ∈ found, embedding.source = .remote

theorem AllRemote.cons {count : Nat} {embedding : Embedding} {found : List Embedding}
    (first : embedding.source = .remote) (all : AllRemote count found) :
    AllRemote (count + 1) (embedding :: found) :=
  ⟨congrArg Nat.succ all.1, List.forall_mem_cons.mpr ⟨first, all.2⟩⟩

theorem AllRemote.append {count count' : Nat} {found found' : List Embedding}
    (first : AllRemote count found) (second : AllRemote count' found') :
    AllRemote (count + count') (found ++ found') :=
  ⟨by rw [List.length_append, first.1, second.1], List.forall_mem_append.mpr ⟨first.2, second.2⟩⟩

section Run

variable {p : Provider σ} {start e : Embedder τ σ} {seen more : List String} {failures worse : Nat}

namespace Standing

theorem mono (standing : Standing p now start seen failures e) (known : seen ⊆ more)
    (le : failures ≤ worse) : Standing p now start more worse e :=
  { standing with
    bears := standing.bears.mono le
    cached := fun entry member => (standing.cached entry member).imp_left fun old => known old }

theorem look (standing : Standing p now start seen failures e) (normalized : String) :
    Standing p now start seen failures (e.look now normalized) :=
  { standing with
    kin := standing.kin.trans ⟨rfl, rfl, rfl, rfl⟩
    cached := fun entry member => standing.cached entry (Cache.mem_get member) }

theorem hit (standing : Standing p now start seen failures e) (normalized : String) :
    Standing p now start seen failures (e.look now normalized).countHit :=
  { standing.look normalized with
    kin := standing.kin.trans ⟨rfl, rfl, rfl, rfl⟩ }

theorem keep (standing : Standing p now start seen failures e) (normalized : String)
    (vector : List Float) :
    Standing p now start (start.key normalized :: seen) failures
      (e.keep now normalized vector).2 where
  kin := standing.kin.trans ⟨rfl, rfl, rfl, rfl⟩
  patient := standing.patient
  bears := standing.bears
  cached entry member := by
    obtain old | ⟨atKey, value⟩ := Cache.mem_set member
    · exact (standing.cached entry old).imp_left (List.mem_cons_of_mem _)
    · rw [atKey, value, standing.kin.key]
      exact ⟨List.mem_cons_self, rfl⟩

theorem keepAll (standing : Standing p now start seen failures e)
    (sent : List (String × List Float)) :
    Standing p now start (seen ++ sent.map (start.key ·.1)) failures (e.keepAll now sent).2 := by
  induction sent generalizing e seen with
  | nil =>
    rw [List.map_nil, List.append_nil]
    exact standing
  | cons first rest ih =>
    rw [List.map_cons]
    exact (ih (standing.keep first.1 first.2)).mono List.perm_middle.symm.subset (Nat.le_refl _)

theorem not_shut (standing : Standing p now start seen failures e) : ¬ e.Shut now := by
  rw [Shut, standing.bears.through]
  exact Bool.false_ne_true

theorem succeed (standing : Standing p now start seen failures e) (state : σ) :
    Standing p now start seen 0
      { e with state, circuit := (e.circuit.settled now).succeed } :=
  { standing with
    kin := standing.kin.trans ⟨rfl, rfl, rfl, rfl⟩
    bears := standing.bears.settled.succeed standing.bears.through }

theorem call_one (standing : Standing p now start seen failures e) (reached : Reached p start)
    (takes : TakesOne p) (normalized : String) :
    ∃ vector e', e.call now [normalized] none = (.value [vector], e') ∧
      Standing p now start seen 0 e' := by
  obtain ⟨vector, answer⟩ := takes.one e.state normalized
  refine ⟨vector, _, ?_, standing.succeed (p.answer e.state [normalized]).2⟩
  rw [call_asked standing.not_shut (standing.kin.provider.trans reached.provided)
    (by rw [deadline, standing.kin.timeout]; exact reached.timely), answer]
  rfl

/-- A group is answered, or it fails and its failure is charged. -/
theorem call_many (standing : Standing p now start seen failures e) (reached : Reached p start)
    (takes : TakesOne p) {threshold : Nat}
    (given : start.circuit.limits.failures = .whole threshold)
    (room : start.circuit.limits.Restless now ∨ failures + 1 < threshold) (group : List String) :
    (∃ vectors e', e.call now group none = (.value vectors, e') ∧
        Standing p now start seen 0 e') ∨
      ∃ f e', e.call now group none = (.raised f, e') ∧ isForeseen f = true ∧
        Standing p now start seen (failures + 1) e' := by
  let state := (p.answer e.state group).2
  have inTime : ¬ e.deadline none ≤ 0 := by
    rw [deadline, standing.kin.timeout]
    exact reached.timely
  have failed : Standing p now start seen (failures + 1)
      { e with state, circuit := (e.circuit.settled now).fail now } :=
    { standing with
      kin := standing.kin.trans ⟨rfl, rfl, rfl, rfl⟩
      bears := standing.bears.settled.fail standing.bears.through given room }
  rw [call_asked standing.not_shut (standing.kin.provider.trans reached.provided) inTime]
  cases ending : (p.answer e.state group).1 with
  | value vectors =>
    simp only [heard]
    split
    · exact .inl ⟨vectors, _, rfl, standing.succeed state⟩
    · exact .inr ⟨_, _, rfl, rfl, (standing.succeed state).mono (List.Subset.refl _) (Nat.zero_le _)⟩
  | raised f => exact .inr ⟨f, _, rfl, takes.foreseen _ _ _ ending, failed⟩
  | timedOut => exact .inr ⟨_, _, rfl, rfl, failed⟩
  | never =>
    rw [heard, giveUp_patient (by exact standing.patient)]
    exact .inr ⟨_, _, rfl, rfl, failed⟩

/-- A text that is sent alone is embedded by the provider; when it is new, the failures are
forgotten. -/
theorem embed (standing : Standing p now start seen failures e) (reached : Reached p start)
    (takes : TakesOne p) {text : String} (nonempty : e.normalize text ≠ "") :
    ∃ embedding e', e.embed now text none = (.value embedding, e') ∧
      embedding.source = .remote ∧
      Standing p now start (start.key (e.normalize text) :: seen) failures e' ∧
      (start.key (e.normalize text) ∉ seen →
        Standing p now start (start.key (e.normalize text) :: seen) 0 e') := by
  cases held : e.held? now (e.normalize text) with
  | some embedding =>
    obtain ⟨entry, present, atKey, rfl⟩ := Cache.get_found held
    rw [standing.kin.key] at atKey
    obtain ⟨known, remote⟩ := standing.cached entry present
    rw [embed_held held]
    exact ⟨_, _, rfl, remote,
      (standing.hit _).mono (List.subset_cons_self _ _) (Nat.le_refl _),
      fun new => absurd (atKey ▸ known) new⟩
  | none =>
    have provided : e.provider = some p := standing.kin.provider.trans reached.provided
    obtain ⟨vector, e', called, answered⟩ :=
      (standing.look (e.normalize text)).call_one reached takes (e.normalize text)
    have kept := answered.keep (e.normalize text) vector
    rw [embed_sent held (by simp [provided, nonempty]), called]
    exact ⟨_, _, rfl, rfl, kept.mono (List.Subset.refl _) (Nat.zero_le _), fun _ => kept⟩

/-- Texts that are sent one by one are embedded by the provider; when one of them is new, the failures
are forgotten. -/
theorem embedEach (standing : Standing p now start seen failures e) (reached : Reached p start)
    (takes : TakesOne p) {texts : List String}
    (normal : ∀ text ∈ texts, start.normalize text = text ∧ text ≠ "") :
    ∃ found e', e.embedEach now texts = (.value found, e') ∧ AllRemote texts.length found ∧
      Standing p now start (seen ++ texts.map start.key) failures e' ∧
      (¬ texts.map start.key ⊆ seen →
        Standing p now start (seen ++ texts.map start.key) 0 e') := by
  induction texts generalizing e seen failures with
  | nil =>
    refine ⟨[], e, rfl, ⟨rfl, List.forall_mem_nil _⟩, by simpa using standing, fun new => ?_⟩
    exact absurd (List.nil_subset _) new
  | cons text rest ih =>
    obtain ⟨⟨same, nonempty⟩, others⟩ := List.forall_mem_cons.mp normal
    rw [← standing.kin.normalize] at same
    obtain ⟨embedding, e₁, one, remote, after, forgotten⟩ :=
      standing.embed reached takes (by rwa [same])
    rw [same] at after forgotten
    have regroup {k : Nat} {e' : Embedder τ σ}
        (standing : Standing p now start (start.key text :: seen ++ rest.map start.key) k e') :
        Standing p now start (seen ++ (text :: rest).map start.key) k e' := by
      rw [List.map_cons]
      exact standing.mono List.perm_middle.symm.subset (Nat.le_refl k)
    simp only [Embedder.embedEach, one]
    by_cases known : start.key text ∈ seen
    -- A known text may be found, and then the failures stay; the first new one sets them back.
    · obtain ⟨found, e', ran, all, later, fresh⟩ := ih after others
      rw [ran]
      refine ⟨_, _, rfl, all.cons remote, regroup later, fun new => ?_⟩
      refine regroup (fresh fun old => new ?_)
      rw [List.map_cons, List.cons_subset]
      refine ⟨known, fun key member => ?_⟩
      rcases List.mem_cons.mp (old member) with same | old
      · rw [same]
        exact known
      · exact old
    · obtain ⟨found, e', ran, all, later, -⟩ := ih (forgotten known) others
      rw [ran]
      exact ⟨_, _, rfl, all.cons remote,
        (regroup later).mono (List.Subset.refl _) (Nat.zero_le _), fun _ => regroup later⟩

/-- A group is embedded by the provider. Only a group of several texts that are known adds to the
failures. -/
theorem embedGroup (standing : Standing p now start seen failures e) (reached : Reached p start)
    (takes : TakesOne p) {threshold : Nat}
    (given : start.circuit.limits.failures = .whole threshold) {group : List String}
    (some_ : group ≠ [])
    (room : 2 ≤ group.length → start.circuit.limits.Restless now ∨ failures + 1 < threshold)
    (normal : ∀ text ∈ group, start.normalize text = text ∧ text ≠ "") :
    ∃ found e', e.embedGroup now group = (.value found, e') ∧ AllRemote group.length found ∧
      Standing p now start (seen ++ group.map start.key) (failures + 1) e' ∧
      ((2 ≤ group.length → ¬ group.map start.key ⊆ seen) →
        Standing p now start (seen ++ group.map start.key) 0 e') := by
  -- Whatever answer there is, it settles the group.
  have settled {vectors : List (List Float)} {e₁ : Embedder τ σ}
      (called : e.call now group none = (.value vectors, e₁))
      (answered : Standing p now start seen 0 e₁) :
      ∃ found e', e.embedGroup now group = (.value found, e') ∧ AllRemote group.length found ∧
        Standing p now start (seen ++ group.map start.key) 0 e' := by
    have length := length_of_call called
    have kept := answered.keepAll (group.zip vectors)
    rw [map_zip_fst start.key length] at kept
    simp only [Embedder.embedGroup, called]
    refine ⟨_, _, rfl, ⟨?_, ?_⟩, kept⟩
    · rw [keepAll_result, List.length_map, List.length_zip, length, Nat.min_self]
    · rw [keepAll_result]
      exact List.forall_mem_map.mpr fun s _ => rfl
  by_cases several : 2 ≤ group.length
  · obtain ⟨vectors, e₁, called, answered⟩ | ⟨f, e₁, called, foreseen, charged⟩ :=
      standing.call_many reached takes given (room several) group
    · obtain ⟨found, e', ran, all, after⟩ := settled called answered
      exact ⟨found, e', ran, all, after.mono (List.Subset.refl _) (Nat.zero_le _), fun _ => after⟩
    · obtain ⟨found, e', ran, all, after, fresh⟩ := charged.embedEach reached takes normal
      simp only [Embedder.embedGroup, called, foreseen, if_true]
      exact ⟨found, e', ran, all, after, fun new => fresh (new several)⟩
  -- A group of one text is a single text to the provider.
  · obtain ⟨text, rfl⟩ : ∃ text, group = [text] := by
      refine List.length_eq_one_iff.mp ?_
      have := List.length_pos_iff.mpr some_
      omega
    obtain ⟨vector, e₁, called, answered⟩ := standing.call_one reached takes text
    obtain ⟨found, e', ran, all, after⟩ := settled called answered
    exact ⟨found, e', ran, all, after.mono (List.Subset.refl _) (Nat.zero_le _), fun _ => after⟩

/-- Groups are embedded by the provider, as long as the failures in a row stay below the threshold. -/
theorem embedGroups (reached : Reached p start) (takes : TakesOne p) {threshold : Nat}
    (given : start.circuit.limits.failures = .whole threshold) (groups : List (List String))
    (some_ : ∀ group ∈ groups, group ≠ [])
    (normal : ∀ text ∈ groups.flatten, start.normalize text = text ∧ text ≠ "")
    (before run : List (List String))
    (known : ∀ group ∈ run, 2 ≤ group.length ∧ group ⊆ before.flatten)
    (room : start.circuit.limits.Restless now ∨
      Renews threshold (before ++ run ++ groups.map (·.map start.key)))
    (standing : Standing p now start (before ++ run).flatten run.length e) :
    ∃ found e', e.embedGroups now groups = (.value found, e') ∧
      AllRemote groups.flatten.length found := by
  induction groups generalizing e before run with
  | nil => exact ⟨[], e, rfl, rfl, List.forall_mem_nil _⟩
  | cons group rest ih =>
    obtain ⟨one, others⟩ := List.forall_mem_cons.mp some_
    rw [List.flatten_cons, List.forall_mem_append] at normal
    let keys := group.map start.key
    have several (several : 2 ≤ group.length) :
        start.circuit.limits.Restless now ∨ run.length + 1 < threshold :=
      room.imp_right fun renews => renews before run keys _ rfl known (by rwa [List.length_map])
    obtain ⟨found, e₁, ran, all, after, forgotten⟩ :=
      standing.embedGroup reached takes given one several normal.1
    -- The row of groups goes on, or a new one begins after this group.
    have later : ∃ more e', e₁.embedGroups now rest = (.value more, e') ∧
        AllRemote rest.flatten.length more := by
      by_cases stale : 2 ≤ group.length ∧ keys ⊆ (before ++ run).flatten
      · have old : keys ⊆ before.flatten := by
          intro key member
          rw [List.flatten_append] at stale
          rcases List.mem_append.mp (stale.2 member) with old | seen
          · exact old
          · obtain ⟨earlier, among, inside⟩ := List.mem_flatten.mp seen
            exact (known earlier among).2 inside
        refine ih others normal.2 before (run ++ [keys]) ?_ ?_ ?_
        · exact List.forall_mem_append.mpr ⟨known, List.forall_mem_singleton.mpr
            ⟨by rw [List.length_map]; exact stale.1, old⟩⟩
        · simpa [keys, List.append_assoc] using room
        · simpa [keys, ← List.append_assoc] using after
      · have fresh := forgotten fun several subset => stale ⟨several, subset⟩
        refine ih others normal.2 (before ++ run ++ [keys]) [] ?_ ?_ ?_
        · exact List.forall_mem_nil _
        · simpa [keys, List.append_assoc] using room
        · simpa [keys, List.append_assoc] using fresh
    obtain ⟨more, e', ran', all'⟩ := later
    simp only [Embedder.embedGroups, ran, ran']
    exact ⟨_, _, rfl, by rw [List.flatten_cons, List.length_append]; exact all.append all'⟩

end Standing

theorem lookUpAll_empty (now : τ) (empty : e.cache.entries = []) (provided : e.provider = some p)
    (texts : List String) :
    (∃ tally, (e.lookUpAll now texts).2 = { e with tally }) ∧
      unfilled texts (e.lookUpAll now texts).1 = texts.filter (!·.isEmpty) ∧
      ∀ s ∈ filled texts (e.lookUpAll now texts).1, s.1 = "" := by
  induction texts generalizing e with
  | nil => exact ⟨⟨e.tally, rfl⟩, rfl, List.forall_mem_nil _⟩
  | cons text rest ih =>
    have missing : e.cache.get now (e.key text) = (none, e.cache) :=
      Cache.get_absent (by rw [Cache.entry?, empty, List.find?_nil])
    have stays : (e.provider.isNone || text.isEmpty) = text.isEmpty := by
      rw [provided, Option.isNone_some, Bool.false_or]
    simp only [lookUpAll, missing, stays]
    by_cases none_ : text.isEmpty = true
    · obtain ⟨same, pending, spared⟩ := ih (e := (e.fallBack text).2) empty provided
      simp only [none_, if_true]
      refine ⟨same, ?_, List.forall_mem_cons.mpr ⟨by simpa using none_, spared⟩⟩
      rw [List.filter_cons_of_neg (by simp [none_])]
      exact pending
    · obtain ⟨same, pending, spared⟩ := ih empty provided
      simp only [none_, Bool.false_eq_true, if_false]
      refine ⟨same, ?_, spared⟩
      rw [List.filter_cons_of_pos (by simp [none_])]
      exact congrArg (text :: ·) pending

theorem Standing.settle (standing : Standing p now start seen failures e) :
    Standing p now start seen failures (e.settle now) :=
  { standing with
    kin := standing.kin.trans ⟨rfl, rfl, rfl, rfl⟩
    bears := standing.bears.settled }

theorem Standing.embedPending (standing : Standing p now start [] 0 e) (reached : Reached p start)
    (takes : TakesOne p) {threshold : Nat}
    (given : start.circuit.limits.failures = .whole threshold)
    (positive : 0 < start.config.batchSize) {pending : List String}
    (normal : ∀ text ∈ pending, start.normalize text = text ∧ text ≠ "")
    (room : start.circuit.limits.Restless now ∨
      Renews threshold (Slice.groups start.config.batchSize (pending.map start.key))) :
    ∃ found e', e.embedPending now pending = (.value found, e') ∧
      AllRemote pending.length found := by
  simp only [Embedder.embedPending]
  split
  next nothing =>
    rw [List.isEmpty_iff.mp nothing]
    exact ⟨[], e, rfl, rfl, List.forall_mem_nil _⟩
  · rw [if_neg standing.not_shut, standing.kin.config]
    rw [Slice.groups_map] at room
    have ran := standing.settle.embedGroups reached takes given
      (Slice.groups start.config.batchSize pending)
      (fun group member => Slice.ne_nil_of_mem_groups positive member)
      (fun text member => normal text (Slice.mem_groups member)) [] []
      (List.forall_mem_nil _) (by simpa using room)
    rwa [Slice.flatten_groups positive] at ran

theorem Standing.embedAll (standing : Standing p now e [] 0 e) (empty : e.cache.entries = [])
    (reached : Reached p e) (takes : TakesOne p) {threshold : Nat}
    (given : e.circuit.limits.failures = .whole threshold) (positive : 0 < e.config.batchSize)
    (texts : List String)
    (room : e.circuit.limits.Restless now ∨ Renews threshold (Slice.groups e.config.batchSize
      (((texts.map e.normalize).filter (!·.isEmpty)).map e.key))) :
    ∃ found e', e.embedAll now texts = (.value found, e') ∧
      List.Forall₂ (fun text embedding => e.normalize text ≠ "" → embedding.source = .remote)
        texts found := by
  obtain ⟨⟨tally, same⟩, pending, spared⟩ :=
    lookUpAll_empty now empty reached.provided (texts.map e.normalize)
  have length := (lookUpAll_steps (P := fun _ => True) now e (texts.map e.normalize)).length
  have looked : Standing p now e [] 0 (e.lookUpAll now (texts.map e.normalize)).2 := by
    rw [same]
    exact { standing with kin := ⟨rfl, rfl, rfl, rfl⟩ }
  have normal : ∀ n ∈ (texts.map e.normalize).filter (!·.isEmpty), e.normalize n = n ∧ n ≠ "" := by
    intro n member
    obtain ⟨among, nonempty⟩ := List.mem_filter.mp member
    obtain ⟨text, -, rfl⟩ := List.mem_map.mp among
    exact ⟨Feature.normalize_normalize _ text, by simpa using nonempty⟩
  obtain ⟨found, e', ran, all⟩ := looked.embedPending reached takes given positive normal room
  rw [← pending] at ran all
  obtain ⟨filledAll, perm⟩ := fill_perm _ _ found length all.1
  rw [embedAll_eq]
  simp only [ran]
  have remote : List.Forall₂ (fun n (embedding : Embedding) => n ≠ "" → embedding.source = .remote)
      (texts.map e.normalize) (fill (e.lookUpAll now (texts.map e.normalize)).1 found) := by
    refine List.forall₂_iff_zip.mpr ⟨filledAll.symm, fun {n embedding} member nonempty => ?_⟩
    rcases List.mem_append.mp (perm.mem_iff.mpr member) with filled | sent
    · exact absurd (spared _ filled) nonempty
    · exact all.2 _ (List.of_mem_zip sent).2
  exact ⟨_, _, rfl, List.forall₂_map_left_iff.mp remote⟩

end Run

/-- The provider embeds every text that is not empty, whatever it does with groups: as long as the
circuit does not pause, or groups bring new texts often enough. -/
theorem embedAll_retries (duration : Float → τ) {config : EmbeddingConfig}
    (positive : 0 < config.batchSize) (settings : Settings)
    (timely : ¬ timeoutOf config settings ≤ 0) {p : Provider σ} (takes : TakesOne p) (state : σ)
    (now : τ) (texts : List String) :
    let e := create duration config settings (some p) state
    let keys := ((texts.map e.normalize).filter (!·.isEmpty)).map e.key
    e.circuit.limits.Restless now ∨
        Renews config.failureThreshold (Slice.groups config.batchSize keys) →
      ∃ found e', e.embedAll now texts = (.value found, e') ∧
        List.Forall₂ (fun text embedding => e.normalize text ≠ "" → embedding.source = .remote)
          texts found := by
  intro e keys room
  have fresh : Standing p now e [] 0 e :=
    ⟨.refl e, rfl, ⟨rfl, .inr ⟨rfl, Nat.le_refl 0⟩⟩, List.forall_mem_nil _⟩
  exact fresh.embedAll rfl ⟨rfl, timely⟩ takes rfl positive texts room

/-- A provider that takes one text at a time. -/
def single : Provider Unit where
  model := "single"
  answer s texts := (match texts with
    | [_] => .value [[1.0]]
    | _ => .raised (.plain .provider "too many texts"), s)

theorem takesOne_single : TakesOne single where
  one _ _ := ⟨_, rfl⟩
  foreseen state texts f raised := by
    simp only [single] at raised
    split at raised <;> cases raised
    rfl

/-- Four texts in two groups, with a threshold of two failures. -/
theorem embedAll_retries_twice :
    let config := { EngineConfig.standard.embeddings with batchSize := 2, failureThreshold := 2 }
    let e : Embedder Int Unit := create (fun _ => 60) config Settings.standard (some single) ()
    let texts := ["a", "b", "", "c", "d e"]
    ∃ found e', e.embedAll 0 texts = (.value found, e') ∧
      List.Forall₂ (fun text embedding => e.normalize text ≠ "" → embedding.source = .remote)
        texts found := by
  intro config e texts
  refine embedAll_retries (fun _ => (60 : Int)) (show 0 < config.batchSize by decide)
    Settings.standard (by decide +kernel) takesOne_single () 0 texts (.inr ?_)
  exact renews_of_nodup (by decide) (by decide +kernel)

/-- With a threshold of one failure, that of a group costs its texts the provider. -/
theorem embedAll_charged :
    ∃ config, EmbeddingConfig.decode (.object [("failure_threshold", .int 1)]) = .ok config ∧
      let e : Embedder Int Unit := create (fun _ => 60) config Settings.standard (some single) ()
      (e.embedAll 0 ["a", "bb"]).1.map (·.map (·.source)) = .value [.fallback, .fallback] :=
  ⟨_, rfl, rfl⟩

-- Groups of known texts count as well, though the cache has all of their vectors.
example :
    let config := { EngineConfig.standard.embeddings with batchSize := 2, failureThreshold := 2 }
    let alone : Provider Unit := {
      model := "alone"
      answer := fun s texts =>
        (if texts.length = 1 then .value [[1.0]] else .raised (.plain .provider "too many"), s) }
    let e : Embedder Int Unit := create (fun _ => 60) config Settings.standard (some alone) ()
    (match (e.embedAll 0 ["a", "b", "a", "b", "c", "d"]).1 with
      | .value found => found.map (·.source)
      | _ => []) = [.remote, .remote, .remote, .remote, .fallback, .fallback] := by
  decide +kernel

end Time

end Embedder

end CodeAtlas
