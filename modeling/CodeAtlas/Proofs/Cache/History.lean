import CodeAtlas.Proofs.Cache
import CodeAtlas.Proofs.Number.Order
import Mathlib.Algebra.Order.Group.Unbundled.Basic
import Mathlib.Data.Finset.Card

/-!
# A cache by its history

A cache remembers of its history what a read may ask for: under each key the value that was stored
last, until it expires or is dropped. It forgets a value before that only for want of room, and then
so many other keys have been used since as there is room for entries.

## Main results

`Cache.Session.after_history`, for any sequence of operations while time goes on.

## Proof strategy

`Session.Recalls` ties the entries to the events: each entry is what its key was last told, and the
keys of the entries behind it have all been used since it was. So an entry that is pushed out leaves
behind as many keys as there is room for. `Recalls.insert`, `Recalls.read` and `Recalls.keep` are the
steps, `Recalls.after` is the induction.
-/

namespace CodeAtlas.Cache

variable {τ β : Type}

/-! ### What the history says -/

/-- What happened to a cache, as far as it matters later. -/
inductive Event (τ β : Type) where
  | stored (key : String) (value : β) (expires : τ)
  /-- A read found a live value. -/
  | found (key : String)
  /-- The entries under some keys were dropped on request. -/
  | dropped (covers : String → Bool)

namespace Event

/-- The key that was used. -/
def used? : Event τ β → Option String
  | stored key _ _ | found key => some key
  | dropped _ => none

/-- The event says what stands under a key: a value or nothing. -/
def decides (key : String) : Event τ β → Bool
  | stored key' _ _ => key' == key
  | found _ => false
  | dropped covers => covers key

/-- What was stored, with the time from which it no longer counts. -/
def kept? : Event τ β → Option (β × τ)
  | stored _ value expires => some (value, expires)
  | _ => none

end Event

/-- What was stored last under a key and not dropped since, in a log whose last event comes first. -/
def latest? (log : List (Event τ β)) (key : String) : Option (β × τ) :=
  (log.find? (Event.decides key)).bind Event.kept?

/-- The other keys that were used since a key was used last. -/
def usedSince (log : List (Event τ β)) (key : String) : Finset String :=
  ((log.takeWhile fun e => e.used? != some key).filterMap Event.used?).toFinset

section Log

variable {e : Event τ β} {log : List (Event τ β)} {key other : String}

theorem latest?_cons_of_not_decides (apart : e.decides key = false) :
    latest? (e :: log) key = latest? log key := by
  rw [latest?, latest?, List.find?_cons_of_neg (by simp [apart])]

theorem latest?_cons_of_decides (decides : e.decides key = true) :
    latest? (e :: log) key = e.kept? := by
  rw [latest?, List.find?_cons_of_pos decides, Option.bind_some]

/-- The keys that were used since are those of before and the one that is used now. -/
theorem mem_usedSince_cons (apart : e.used? ≠ some key) :
    other ∈ usedSince (e :: log) key ↔ e.used? = some other ∨ other ∈ usedSince log key := by
  have kept : (e.used? != some key) = true := by simpa using apart
  simp only [usedSince, List.takeWhile_cons, kept, if_true, List.mem_toFinset, List.mem_filterMap,
    List.mem_cons, or_and_right, exists_or, exists_eq_left]

theorem usedSince_subset_cons (apart : e.used? ≠ some key) :
    usedSince log key ⊆ usedSince (e :: log) key :=
  fun _ member => (mem_usedSince_cons apart).mpr (.inr member)

end Log

/-! ### Sessions -/

section Time

set_option linter.unusedSectionVars false

variable [AddCommGroup τ] [LinearOrder τ] [IsOrderedAddMonoid τ]

/-- What is done with a cache, or the passing of time. -/
inductive Use (τ β : Type) [AddCommGroup τ] [LinearOrder τ] where
  /-- A value is stored, for as long as is said or as the cache says. -/
  | set (key : String) (value : β) (lifetime : Option τ)
  | get (key : String)
  /-- It is asked whether there is a live value. -/
  | contains (key : String)
  | invalidate (key : String)
  | invalidateUnder (start : String)
  | clear
  | wait (span : {d : τ // 0 ≤ d})

/-- A cache in use. -/
structure Session (τ β : Type) where
  now : τ
  cache : Cache τ β
  /-- What happened to it, the last event first. -/
  log : List (Event τ β)

namespace Session

/-- The session after a value was stored. -/
def store (s : Session τ β) (key : String) (value : β) (lifetime : τ) : Session τ β :=
  { s with
    cache := s.cache.insert s.now key value lifetime
    log := .stored key value (s.now + lifetime) :: s.log }

/-- The session after a read. -/
def read (s : Session τ β) (key : String) : Session τ β :=
  { s with
    cache := (s.cache.get s.now key).2
    log := if (s.cache.get s.now key).1.isSome then .found key :: s.log else s.log }

/-- The session after a use. -/
def use (s : Session τ β) : Use τ β → Session τ β
  | .set key value none =>
    { s with
      cache := s.cache.set s.now key value
      log := .stored key value (s.now + s.cache.lifetime) :: s.log }
  | .set key value (some lifetime) => s.store key value lifetime
  | .get key | .contains key => s.read key
  | .invalidate key =>
    { s with cache := (s.cache.invalidate key).2, log := .dropped (· == key) :: s.log }
  | .invalidateUnder start =>
    { s with
      cache := (s.cache.invalidateUnder start).2
      log := .dropped start.isPrefixOf :: s.log }
  | .clear => { s with cache := s.cache.clear, log := .dropped (fun _ => true) :: s.log }
  | .wait span => { s with now := s.now + span }

/-- The session after some uses. -/
def after (s : Session τ β) (uses : List (Use τ β)) : Session τ β :=
  uses.foldl use s

/-- The cache holds what its log says, as far as there is room. -/
structure Recalls (s : Session τ β) : Prop where
  distinct : s.cache.Distinct
  small : s.cache.size ≤ s.cache.capacity
  /-- An entry is what was stored last. -/
  latest : ∀ e ∈ s.cache.entries, latest? s.log e.key = some (e.value, e.expires)
  /-- What stands behind an entry has been used since. -/
  newer : s.cache.entries.Pairwise fun e later => later.key ∈ usedSince s.log e.key
  /-- What is not there any more has expired or was pushed out. -/
  gone : ∀ key value expires, latest? s.log key = some (value, expires) →
    s.cache.entry? key = none →
      expires ≤ s.now ∨ s.cache.capacity ≤ (usedSince s.log key).card

section Steps

variable {s : Session τ β} {key : String}

/-- An entry that is used now stands behind the others, whose keys were used before. -/
theorem Recalls.moved (recalls : s.Recalls) {e : Event τ β} (entry : Entry τ β)
    (used : e.used? = some entry.key) :
    ((s.cache.erase entry.key).entries ++ [entry]).Pairwise fun e' later =>
      later.key ∈ usedSince (e :: s.log) e'.key := by
  have apart : ∀ e' ∈ (s.cache.erase entry.key).entries, e.used? ≠ some e'.key := by
    intro e' member same
    have other : e'.key ≠ entry.key := by simpa using (List.mem_filter.mp member).2
    exact other (Option.some.inj (same.symm.trans used))
  have before := recalls.newer.sublist (List.filter_sublist (p := fun e => e.key != entry.key))
  refine List.pairwise_append.mpr ⟨?_, List.pairwise_singleton _ _, ?_⟩
  · exact before.imp_of_mem fun member _ since =>
      usedSince_subset_cons (apart _ member) since
  · intro e' member last new
    rw [List.mem_singleton.mp new]
    exact (mem_usedSince_cons (apart e' member)).mpr (.inl used)

/-- An entry that is pushed out leaves behind as many other keys as there is room for. -/
theorem card_usedSince {capacity : Nat} {log : List (Event τ β)} {entries : List (Entry τ β)}
    (distinct : (entries.map (·.key)).Nodup)
    (newer : entries.Pairwise fun e later => later.key ∈ usedSince log e.key) {e : Entry τ β}
    (out : e ∈ entries.take (entries.length - capacity)) :
    capacity ≤ (usedSince log e.key).card := by
  have full : capacity < entries.length := by
    by_contra fits
    rw [Nat.sub_eq_zero_of_le (not_lt.mp fits), List.take_zero] at out
    exact List.not_mem_nil out
  generalize pushed : entries.length - capacity = count at out
  have split := List.take_append_drop count entries
  rw [← split, List.map_append, List.nodup_append] at distinct
  rw [← split, List.pairwise_append] at newer
  calc capacity
    _ = (entries.drop count).length := by rw [List.length_drop]; omega
    _ = ((entries.drop count).map (·.key)).toFinset.card := by
      rw [List.toFinset_card_of_nodup distinct.2.1, List.length_map]
    _ ≤ (usedSince log e.key).card := by
      refine Finset.card_le_card fun key member => ?_
      obtain ⟨later, stays, rfl⟩ := List.mem_map.mp (List.mem_toFinset.mp member)
      exact newer.2.2 e out later stays

theorem entry?_insert_self {c : Cache τ β} (holds : 0 < c.capacity) (now : τ) (key : String)
    (value : β) (lifetime : τ) :
    Cache.entry? (c.insert now key value lifetime) key = some ⟨key, now + lifetime, value⟩ :=
  entry?_set_self (c := { c with lifetime }) holds now key value

theorem Recalls.store (recalls : s.Recalls) (holds : 0 < s.cache.capacity) (value : β)
    (lifetime : τ) : (s.store key value lifetime).Recalls := by
  have behind := recalls.distinct.append ⟨key, s.now + lifetime, value⟩
  have newer := recalls.moved (e := .stored key value (s.now + lifetime))
    ⟨key, s.now + lifetime, value⟩ rfl
  refine ⟨behind.sublist ((List.drop_sublist _ _).map _), ?_, ?_,
    newer.sublist (List.drop_sublist _ _), ?_⟩
  · simp only [Session.store, size, Cache.insert, List.length_drop]
    omega
  · intro e member
    rcases List.mem_append.mp (List.mem_of_mem_drop member) with old | new
    · have apart : e.key ≠ key := by simpa using (List.mem_filter.mp old).2
      rw [Session.store, latest?_cons_of_not_decides (by simpa [Event.decides] using apart.symm)]
      exact recalls.latest e (mem_erase old)
    · rw [List.mem_singleton.mp new]
      exact latest?_cons_of_decides (by simp [Event.decides])
  · intro key' value' expires latest missing
    have apart : key ≠ key' := by
      rintro rfl
      cases (entry?_insert_self holds s.now key value lifetime).symm.trans missing
    rw [Session.store, latest?_cons_of_not_decides (by simpa [Event.decides] using apart)] at latest
    have unused : (Event.stored key value (s.now + lifetime)).used? ≠ some key' := by
      simpa [Event.used?] using apart
    cases present : s.cache.entry? key' with
    | none =>
      refine (recalls.gone key' value' expires latest present).imp_right fun enough => ?_
      exact enough.trans (Finset.card_le_card (usedSince_subset_cons unused))
    | some e =>
      -- It was there before, so it is among the entries that were pushed out.
      obtain ⟨member, rfl⟩ := mem_of_entry present
      have among : e ∈ (s.cache.erase key).entries ++ [⟨key, s.now + lifetime, value⟩] :=
        List.mem_append_left _ (List.mem_filter.mpr ⟨member, by simpa using apart.symm⟩)
      rw [← List.take_append_drop (_ - s.cache.capacity) (_ ++ _)] at among
      rcases List.mem_append.mp among with out | stays
      · exact .inr (card_usedSince behind newer out)
      · have differs := List.find?_eq_none.mp missing e stays
        simp at differs

theorem length_erase_lt {c : Cache τ β} {e : Entry τ β} (member : e ∈ c.entries) :
    (c.erase e.key).entries.length < c.size :=
  List.length_filter_lt_length_iff_exists.mpr ⟨e, member, by simp⟩

theorem read_absent (absent : s.cache.entry? key = none) : s.read key = s := by
  simp only [Session.read, get_absent absent]
  rfl

theorem read_expired {e : Entry τ β} (present : s.cache.entry? key = some e)
    (late : ¬ e.lives s.now = true) : s.read key = { s with cache := s.cache.erase key } := by
  simp only [Session.read, get_present present, if_neg late]
  rfl

theorem read_live {e : Entry τ β} (present : s.cache.entry? key = some e)
    (lives : e.lives s.now = true) :
    s.read key = { s with
      cache := { s.cache.erase key with entries := (s.cache.erase key).entries ++ [e] }
      log := .found key :: s.log } := by
  simp only [Session.read, get_present present, if_pos lives]
  rfl

theorem Recalls.read (recalls : s.Recalls) (key : String) : (s.read key).Recalls := by
  cases present : s.cache.entry? key with
  | none => rwa [read_absent present]
  | some e =>
    have others := entry?_get s.cache s.now key
    rw [get_present present, present, Option.filter_some] at others
    obtain ⟨member, rfl⟩ := mem_of_entry present
    by_cases lives : e.lives s.now = true
    · -- The entry becomes the one used last.
      rw [read_live present lives]
      rw [if_pos lives, if_pos lives] at others
      refine ⟨recalls.distinct.append e, ?_, ?_, recalls.moved e rfl, ?_⟩
      · have fewer := length_erase_lt member
        have small := recalls.small
        simp only [size, erase, List.length_append, List.length_singleton] at fewer small ⊢
        omega
      · intro e' among
        rw [latest?_cons_of_not_decides (by rfl)]
        rcases List.mem_append.mp among with old | new
        · exact recalls.latest e' (mem_erase old)
        · rw [List.mem_singleton.mp new]
          exact recalls.latest e member
      · intro key' value expires latest missing
        rw [latest?_cons_of_not_decides (by rfl)] at latest
        rw [others] at missing
        split at missing
        · cases missing
        next apart =>
          have unused : (Event.found e.key : Event τ β).used? ≠ some key' := fun same =>
            apart (Option.some.inj same).symm
          refine (recalls.gone key' value expires latest missing).imp_right fun enough => ?_
          exact enough.trans (Finset.card_le_card (usedSince_subset_cons unused))
    · rw [read_expired present lives]
      rw [if_neg lives, if_neg lives] at others
      refine ⟨recalls.distinct.erase _, (List.length_filter_le _ _).trans recalls.small, ?_,
        recalls.newer.sublist List.filter_sublist, ?_⟩
      · exact fun e' among => recalls.latest e' (mem_erase among)
      · intro key' value expires latest missing
        rw [others] at missing
        split at missing
        next same =>
          obtain ⟨rfl, rfl⟩ := Prod.mk.inj
            (Option.some.inj (latest.symm.trans (same ▸ recalls.latest e member)))
          exact .inl (by simpa [Entry.lives] using lives)
        next apart => exact recalls.gone key' value expires latest missing

/-- The session after the entries under some keys were dropped. -/
def drop (s : Session τ β) (covers : String → Bool) : Session τ β :=
  { s with
    cache := { s.cache with entries := s.cache.entries.filter fun e => !covers e.key }
    log := .dropped covers :: s.log }

theorem entry?_drop (s : Session τ β) (covers : String → Bool) (key : String) :
    (s.drop covers).cache.entry? key = if covers key then none else s.cache.entry? key := by
  simp only [Session.drop, Cache.entry?, List.find?_filter]
  split
  next covered =>
    refine List.find?_eq_none.mpr fun e _ => ?_
    simp only [Bool.not_eq_true', beq_iff_eq, decide_eq_true_eq]
    rintro ⟨kept, rfl⟩
    simp [covered] at kept
  next kept =>
    refine congrArg (List.find? · s.cache.entries) (funext fun e => ?_)
    by_cases atKey : e.key = key
    · simp [atKey, kept]
    · simp [atKey]

theorem Recalls.drop (recalls : s.Recalls) (covers : String → Bool) : (s.drop covers).Recalls := by
  have unused : ∀ key, (Event.dropped covers : Event τ β).used? ≠ some key := fun key => nofun
  refine ⟨recalls.distinct.sublist (List.filter_sublist.map _),
    (List.length_filter_le _ _).trans recalls.small, ?_, ?_, ?_⟩
  · intro e member
    obtain ⟨old, kept⟩ := List.mem_filter.mp member
    rw [Session.drop, latest?_cons_of_not_decides (by simpa [Event.decides] using kept)]
    exact recalls.latest e old
  · refine (recalls.newer.sublist List.filter_sublist).imp fun since => ?_
    exact usedSince_subset_cons (unused _) since
  · intro key value expires latest missing
    have kept : covers key = false := by
      by_contra covered
      rw [Session.drop, latest?_cons_of_decides (by simpa [Event.decides] using covered)] at latest
      cases latest
    rw [Session.drop, latest?_cons_of_not_decides (by exact kept)] at latest
    rw [entry?_drop, kept] at missing
    refine (recalls.gone key value expires latest missing).imp_right fun enough => ?_
    exact enough.trans (Finset.card_le_card (usedSince_subset_cons (unused key)))

theorem use_clear (s : Session τ β) : s.use .clear = s.drop fun _ => true := by
  have nothing : (s.cache.entries.filter fun _ => !true) = [] :=
    List.filter_eq_nil_iff.mpr fun _ _ => by simp
  simp only [use, Cache.clear, Session.drop, nothing]

theorem Recalls.use (recalls : s.Recalls) (holds : 0 < s.cache.capacity) (u : Use τ β) :
    (s.use u).Recalls := by
  cases u with
  | set key value lifetime =>
    cases lifetime with
    | none => exact recalls.store holds value s.cache.lifetime
    | some lifetime => exact recalls.store holds value lifetime
  | get key => exact recalls.read key
  | contains key => exact recalls.read key
  | invalidate key => exact recalls.drop (· == key)
  | invalidateUnder start => exact recalls.drop start.isPrefixOf
  | clear => exact use_clear s ▸ recalls.drop _
  | wait span =>
    refine { recalls with gone := fun key value expires latest missing => ?_ }
    refine (recalls.gone key value expires latest missing).imp_left fun late => ?_
    exact late.trans (le_add_of_nonneg_right span.2)

theorem capacity_use (s : Session τ β) (u : Use τ β) :
    (s.use u).cache.capacity = s.cache.capacity := by
  cases u with
  | set key value lifetime => cases lifetime <;> rfl
  | get key => exact (get_limits s.cache s.now key).1
  | contains key => exact (get_limits s.cache s.now key).1
  | _ => rfl

theorem Recalls.after (recalls : s.Recalls) (holds : 0 < s.cache.capacity) (uses : List (Use τ β)) :
    (s.after uses).Recalls ∧ (s.after uses).cache.capacity = s.cache.capacity := by
  induction uses generalizing s with
  | nil => exact ⟨recalls, rfl⟩
  | cons u rest ih =>
    have same := capacity_use s u
    obtain ⟨after, kept⟩ := ih (recalls.use holds u) (same ▸ holds)
    exact ⟨after, kept.trans same⟩

end Steps

/-! ### The history -/

/-- A use leaves the entry under a key: it reads or drops others, or time passes. -/
def Use.Spares (key : String) : Use τ β → Prop
  | .get key' | .contains key' | .invalidate key' => key' ≠ key
  | .invalidateUnder start => start.isPrefixOf key = false
  | .wait _ => True
  | .set _ _ _ | .clear => False

theorem entry?_use (s : Session τ β) {key : String} {u : Use τ β} (spares : Use.Spares key u) :
    (s.use u).cache.entry? key = s.cache.entry? key := by
  cases u with
  | get key' => exact (entry?_get s.cache s.now key' key).trans (if_neg (Ne.symm spares))
  | contains key' => exact (entry?_get s.cache s.now key' key).trans (if_neg (Ne.symm spares))
  | invalidate key' =>
    exact (entry?_drop s (· == key') key).trans (if_neg (by simpa using Ne.symm spares))
  | invalidateUnder start =>
    exact (entry?_drop s start.isPrefixOf key).trans (if_neg (Bool.eq_false_iff.mp spares))
  | wait span => rfl
  | set | clear => cases spares

theorem create_whole {capacity : Nat} (holds : 1 ≤ capacity) {lifetime : τ} (lasts : 0 < lifetime) :
    (create (.whole capacity) lifetime : Except _ (Cache τ β)) = .ok (empty capacity lifetime) := by
  have room : ¬ (Number.Scalar.whole capacity) < 1 := by
    rw [show (1 : Number.Scalar) = .whole 1 from rfl, Number.Scalar.whole_lt_whole]
    omega
  rw [create, if_neg room, if_neg (not_le.mpr lasts)]
  rfl

/-- However a cache was used while time went on, it has no more entries than there is room for, and no
two under one key. A read finds what was stored last under the key, unless that has expired or was
dropped; and it does find it, unless as many other keys as there is room for have been used since.
Reading and dropping other keys leaves what stands under a key as it is. -/
theorem after_history {capacity : Nat} (holds : 1 ≤ capacity) {lifetime : τ} (lasts : 0 < lifetime)
    (start : τ) (uses : List (Use τ β)) :
    ∃ c : Cache τ β, create (.whole capacity) lifetime = .ok c ∧
      let s := after ⟨start, c, []⟩ uses
      s.cache.size ≤ capacity ∧ (s.cache.entries.map (·.key)).Nodup ∧
      (∀ key value, (s.cache.get s.now key).1 = some value →
        ∃ expires, latest? s.log key = some (value, expires) ∧ s.now < expires) ∧
      (∀ key value expires, latest? s.log key = some (value, expires) → s.now < expires →
        (usedSince s.log key).card < capacity → (s.cache.get s.now key).1 = some value) ∧
      ∀ key u, Use.Spares key u → (s.use u).cache.entry? key = s.cache.entry? key := by
  refine ⟨_, create_whole holds lasts, ?_⟩
  have fresh : Recalls (⟨start, empty capacity lifetime, []⟩ : Session τ β) :=
    ⟨List.nodup_nil, Nat.zero_le _, List.forall_mem_nil _, .nil, fun _ _ _ latest => by cases latest⟩
  obtain ⟨recalls, same⟩ := fresh.after holds uses
  intro s
  have room : s.cache.capacity = capacity := same
  refine ⟨room ▸ recalls.small, recalls.distinct, fun key value found => ?_,
    fun key value expires latest lives few => ?_, fun key u spares => entry?_use s spares⟩
  · obtain ⟨e, member, rfl, lives, rfl⟩ := get_lives found
    exact ⟨e.expires, recalls.latest e member, by simpa [Entry.lives] using lives⟩
  · cases present : s.cache.entry? key with
    | none =>
      rcases recalls.gone key value expires latest present with late | many
      · exact absurd lives (not_lt.mpr late)
      · exact absurd few (not_lt.mpr (room ▸ many))
    | some e =>
      obtain ⟨member, rfl⟩ := mem_of_entry present
      obtain ⟨rfl, rfl⟩ := Prod.mk.inj
        (Option.some.inj ((recalls.latest e member).symm.trans latest))
      exact recalls.distinct.get_of_mem member (by simpa [Entry.lives] using lives)

/-- With room for two, the entry that is pushed out is the one that was not read. -/
theorem after_history_pushed :
    let uses : List (Use Int String) := [.set "a" "1" none, .set "b" "2" (some 5), .get "a",
      .wait ⟨4, by decide⟩, .set "c" "3" none, .contains "b"]
    ∃ c : Cache Int String, create (.whole 2) 10 = .ok c ∧
      let s := after ⟨0, c, []⟩ uses
      s.cache.size ≤ 2 ∧
      (latest? s.log "a" = some ("1", 10) ∧ usedSince s.log "a" = {"c"} ∧
        (s.cache.get s.now "a").1 = some "1") ∧
      (latest? s.log "b" = some ("2", 5) ∧ usedSince s.log "b" = {"a", "c"} ∧
        (s.cache.get s.now "b").1 = none) := by
  intro uses
  obtain ⟨c, created, small, -, -, kept, -⟩ :=
    after_history (show 0 < 2 by decide) (show (0 : Int) < 10 by decide) 0 uses
  obtain rfl : empty 2 10 = c := Except.ok.inj ((create_whole (by decide) (by decide)).symm.trans created)
  exact ⟨_, created, small,
    ⟨rfl, by decide, kept "a" "1" 10 rfl (by decide) (by decide)⟩, rfl, by decide, by decide⟩

end Session

end Time

end CodeAtlas.Cache
