import CodeAtlas.Cache
import Mathlib.Data.List.Nodup
import Mathlib.Data.List.Perm.Subperm

/-!
# What a cache holds

No operation puts anything into a cache but the value that it is given under the key that it is
given: a read finds an entry that was there, and what is left after any operation was there before
or is the new entry. As long as there is room, an operation on one key leaves the entries under all
other keys.

## Main results

`mem_get` and `mem_set` say which entries are left, `entry?_get` and `entry?_set` which entry stands
under a key; `get_set` reads what was inserted.
-/

namespace CodeAtlas.Cache

variable {τ β : Type} {c : Cache τ β} {key : String}

theorem mem_erase {e : Entry τ β} (member : e ∈ (c.erase key).entries) : e ∈ c.entries :=
  (List.mem_filter.mp member).1

theorem mem_of_entry {e : Entry τ β} (found : c.entry? key = some e) :
    e ∈ c.entries ∧ e.key = key :=
  ⟨List.mem_of_find?_eq_some found, by simpa using List.find?_some found⟩

section Reads

variable [LE τ] [DecidableLE τ] {now : τ}

/-- A read leaves only entries that were there. -/
theorem mem_get {e : Entry τ β} (member : e ∈ (c.get now key).2.entries) : e ∈ c.entries := by
  simp only [get] at member
  split at member
  · exact member
  next present _ =>
    split at member
    · exact mem_erase member
    -- An entry that was read moves to the end.
    · rcases List.mem_append.mp member with old | new
      · exact mem_erase old
      · rw [List.mem_singleton.mp new]
        exact (mem_of_entry (by assumption)).1

end Reads

/-- After an insertion there are only entries that were there and the new one. -/
theorem mem_set [Add τ] {now : τ} {value : β} {e : Entry τ β}
    (member : e ∈ (c.set now key value).entries) :
    e ∈ c.entries ∨ (e.key = key ∧ e.value = value) := by
  simp only [set, insert] at member
  rcases List.mem_append.mp (List.mem_of_mem_drop member) with old | new
  · exact .inl (mem_erase old)
  · rw [List.mem_singleton.mp new]
    exact .inr ⟨rfl, rfl⟩

/-- No entry under the start is left. -/
theorem mem_eraseUnder {start : String} {e : Entry τ β}
    (member : e ∈ (c.eraseUnder start).entries) :
    e ∈ c.entries ∧ ∀ rest, e.key ≠ start ++ rest := by
  obtain ⟨old, apart⟩ := List.mem_filter.mp member
  refine ⟨old, fun rest atKey => ?_⟩
  rw [atKey, String.isPrefixOf, Bool.not_eq_true',
    String.startsWith_string_eq_false_iff, String.toList_append] at apart
  exact apart (List.prefix_append _ _)

/-! ### The entry under a key -/

theorem entry?_erase (c : Cache τ β) (key key' : String) :
    Cache.entry? (c.erase key) key' = if key' = key then none else c.entry? key' := by
  simp only [Cache.entry?, erase, List.find?_filter]
  split
  next same =>
    refine List.find?_eq_none.mpr fun e _ => ?_
    simp [same]
  next other =>
    refine congrArg (List.find? · c.entries) (funext fun e => ?_)
    by_cases atKey : e.key = key'
    · simp [atKey, other]
    · simp [atKey]

theorem erase_erase (c : Cache τ β) (key : String) : (c.erase key).erase key = c.erase key := by
  simp only [erase, List.filter_filter, Bool.and_self]

/-- The entry still counts. -/
def Entry.lives [LE τ] [DecidableLE τ] (now : τ) (e : Entry τ β) : Bool :=
  !decide (e.expires ≤ now)

section Reads

variable [LE τ] [DecidableLE τ]

theorem get_absent {now : τ} (absent : c.entry? key = none) : c.get now key = (none, c) := by
  simp only [get, absent]

theorem get_present {now : τ} {e : Entry τ β} (present : c.entry? key = some e) :
    c.get now key = if e.lives now then
        (some e.value, { c.erase key with entries := (c.erase key).entries ++ [e] })
      else (none, c.erase key) := by
  simp only [get, present, Entry.lives]
  by_cases late : e.expires ≤ now <;> simp [late]

/-- A read gives the value of the entry, when that still counts. -/
theorem get_value (c : Cache τ β) (now : τ) (key : String) :
    (c.get now key).1 = ((c.entry? key).filter (Entry.lives now)).map (·.value) := by
  cases present : c.entry? key with
  | none =>
    rw [get_absent present]
    rfl
  | some e =>
    rw [get_present present, Option.filter_some]
    split <;> rfl

/-- A read drops the entry when it has expired, and leaves all others. -/
theorem entry?_get (c : Cache τ β) (now : τ) (key key' : String) :
    Cache.entry? (c.get now key).2 key' =
      if key' = key then (c.entry? key).filter (Entry.lives now) else c.entry? key' := by
  cases present : c.entry? key with
  | none =>
    rw [get_absent present]
    split
    next same =>
      rw [same]
      exact present
    · rfl
  | some e =>
    have atKey : e.key = key := (mem_of_entry present).2
    rw [get_present present, Option.filter_some]
    by_cases lives : e.lives now = true
    · -- The entry was moved behind the others.
      have moved :
          Cache.entry? (⟨c.capacity, c.lifetime, (c.erase key).entries ++ [e]⟩ : Cache τ β) key' =
            (Cache.entry? (c.erase key) key').or (if e.key == key' then some e else none) := by
        simp only [Cache.entry?, List.find?_append, List.find?_singleton]
      rw [if_pos lives, if_pos lives]
      refine moved.trans ?_
      rw [entry?_erase, atKey]
      split
      next same => simp [same]
      next other =>
        have apart : (key == key') = false := by simpa using fun same : key = key' => other same.symm
        simp [apart]
    · rw [if_neg lives, if_neg lives]
      exact entry?_erase c key key'

/-- A read changes no other read at the time. -/
theorem get_get (c : Cache τ β) (now : τ) (key key' : String) :
    ((c.get now key).2.get now key').1 = (c.get now key').1 := by
  rw [get_value, get_value, entry?_get]
  split
  next same => simp only [same, Option.filter_filter, Bool.and_self]
  · rfl

/-- A read finds the value of an entry under the key that still counts. -/
theorem get_lives {c : Cache τ β} {now : τ} {key : String} {value : β}
    (found : (c.get now key).1 = some value) :
    ∃ e ∈ c.entries, e.key = key ∧ e.lives now = true ∧ e.value = value := by
  rw [get_value, Option.map_eq_some_iff] at found
  obtain ⟨e, present, same⟩ := found
  obtain ⟨present, lives⟩ := Option.filter_eq_some_iff.mp present
  exact ⟨e, (mem_of_entry present).1, (mem_of_entry present).2, lives, same⟩

theorem get_found {now : τ} {value : β} (found : (c.get now key).1 = some value) :
    ∃ e ∈ c.entries, e.key = key ∧ e.value = value := by
  obtain ⟨e, present, atKey, -, same⟩ := get_lives found
  exact ⟨e, present, atKey, same⟩

end Reads

theorem get_limits [LE τ] [DecidableLE τ] (c : Cache τ β) (now : τ) (key : String) :
    (c.get now key).2.capacity = c.capacity ∧ (c.get now key).2.lifetime = c.lifetime := by
  simp only [get]
  split
  · exact ⟨rfl, rfl⟩
  · split <;> exact ⟨rfl, rfl⟩

/-- As long as there is room, an insertion leaves the entries under all other keys. -/
theorem entry?_set [Add τ] {c : Cache τ β} {key : String} (room : (c.erase key).size < c.capacity)
    (now : τ) (value : β) (key' : String) : Cache.entry? (c.set now key value) key' =
      if key' = key then some ⟨key, now + c.lifetime, value⟩ else c.entry? key' := by
  have all : ((c.erase key).entries ++ [(⟨key, now + c.lifetime, value⟩ : Entry τ β)]).length -
      c.capacity = 0 := by
    rw [List.length_append, List.length_singleton]
    exact Nat.sub_eq_zero_of_le room
  have put : Cache.entry? (c.set now key value) key' =
      (Cache.entry? (c.erase key) key').or
        (if key == key' then some ⟨key, now + c.lifetime, value⟩ else none) := by
    simp only [set, insert, all, List.drop_zero, Cache.entry?, List.find?_append, List.find?_singleton]
  rw [put, entry?_erase]
  split
  next same => simp [same]
  next other =>
    have apart : (key == key') = false := by simpa using fun same : key = key' => other same.symm
    simp [apart]

/-- The entry that was inserted last is there in any case. -/
theorem entry?_set_self [Add τ] {c : Cache τ β} (holds : 0 < c.capacity) (now : τ) (key : String)
    (value : β) : Cache.entry? (c.set now key value) key = some ⟨key, now + c.lifetime, value⟩ := by
  -- No more than the entries before the new one are dropped.
  have dropped : ((c.erase key).entries ++ [(⟨key, now + c.lifetime, value⟩ : Entry τ β)]).length -
      c.capacity ≤ (c.erase key).entries.length := by
    rw [List.length_append, List.length_singleton]
    omega
  have others : ∀ e ∈ (c.erase key).entries, ¬ (e.key == key) = true := fun e member same =>
    absurd same (by simpa using (List.mem_filter.mp member).2)
  simp only [Cache.entry?, set, insert, List.drop_append_of_le_length dropped, List.find?_append]
  rw [List.find?_eq_none.mpr fun e member => others e (List.mem_of_mem_drop member)]
  simp

/-- What was inserted is read as long as it counts. -/
theorem get_set [Add τ] [LE τ] [DecidableLE τ] {c : Cache τ β} (holds : 0 < c.capacity)
    {now later : τ} (lives : ¬ now + c.lifetime ≤ later) (key : String) (value : β) :
    ((c.set now key value).get later key).1 = some value := by
  rw [get_value, entry?_set_self holds]
  simp [Entry.lives, lives]

/-! ### Room -/

/-- No two entries have the same key. -/
def Distinct (c : Cache τ β) : Prop :=
  (c.entries.map (·.key)).Nodup

/-- Every entry is the one under its key. -/
theorem Distinct.entry? (distinct : c.Distinct) {e : Entry τ β} (member : e ∈ c.entries) :
    c.entry? e.key = some e := by
  obtain ⟨before, after, split⟩ := List.append_of_mem member
  refine List.find?_eq_some_iff_append.mpr ⟨by simp, before, after, split, fun e' earlier => ?_⟩
  rw [Distinct, split, List.map_append, List.map_cons] at distinct
  have other := (List.nodup_append.mp distinct).2.2 e'.key (List.mem_map_of_mem earlier) e.key
    List.mem_cons_self
  simpa using other

/-- An entry that still counts is read. -/
theorem Distinct.get_of_mem [LE τ] [DecidableLE τ] (distinct : c.Distinct) {e : Entry τ β}
    (member : e ∈ c.entries) {now : τ} (lives : e.lives now = true) :
    (c.get now e.key).1 = some e.value := by
  rw [get_value, distinct.entry? member, Option.filter_some, if_pos lives, Option.map_some]

theorem Distinct.erase (distinct : c.Distinct) (key : String) : (c.erase key).Distinct :=
  distinct.sublist (List.filter_sublist.map _)

theorem Distinct.append (distinct : c.Distinct) (e : Entry τ β) :
    (((c.erase e.key).entries ++ [e]).map (·.key)).Nodup := by
  rw [List.map_append, List.map_singleton]
  refine List.nodup_append.mpr ⟨distinct.erase e.key, List.nodup_singleton _, ?_⟩
  rintro key among _ last rfl
  obtain ⟨e', left, same⟩ := List.mem_map.mp among
  have apart := (List.mem_filter.mp left).2
  rw [same, List.mem_singleton.mp last] at apart
  simp at apart

theorem Distinct.get [LE τ] [DecidableLE τ] (distinct : c.Distinct) (now : τ) (key : String) :
    (c.get now key).2.Distinct := by
  simp only [Cache.get]
  split
  · exact distinct
  next e present =>
    split
    · exact distinct.erase key
    · have atKey := (mem_of_entry present).2
      exact atKey ▸ distinct.append e

theorem Distinct.set [Add τ] (distinct : c.Distinct) (now : τ) (key : String) (value : β) :
    (c.set now key value).Distinct :=
  (distinct.append ⟨key, now + c.lifetime, value⟩).sublist ((List.drop_sublist _ _).map _)

/-- When all keys are among a few, there are no more entries than these. -/
theorem Distinct.size_le (distinct : c.Distinct) {keys : List String}
    (among : ∀ e ∈ c.entries, e.key ∈ keys) : c.size ≤ keys.length := by
  have subset : c.entries.map (·.key) ⊆ keys := fun key member => by
    obtain ⟨e, stands, rfl⟩ := List.mem_map.mp member
    exact among e stands
  have fewer := (List.subperm_of_subset distinct subset).length_le
  rwa [List.length_map] at fewer

/-- A cache in which there is room for all of some keys, and that is used with these alone. -/
structure Roomy (keys : List String) (c : Cache τ β) : Prop where
  distinct : c.Distinct
  among : ∀ e ∈ c.entries, e.key ∈ keys
  room : keys.length ≤ c.capacity

namespace Roomy

variable {keys : List String}

theorem empty {capacity : Nat} (room : keys.length ≤ capacity) (lifetime : τ) :
    Roomy keys (.empty capacity lifetime : Cache τ β) :=
  ⟨List.nodup_nil, fun _ member => absurd member List.not_mem_nil, room⟩

theorem erase (roomy : Roomy keys c) (key : String) : Roomy keys (c.erase key) :=
  ⟨roomy.distinct.erase key, fun e member => roomy.among e (mem_erase member), roomy.room⟩

theorem get [LE τ] [DecidableLE τ] (roomy : Roomy keys c) (now : τ) (key : String) :
    Roomy keys (c.get now key).2 :=
  ⟨roomy.distinct.get now key, fun e member => roomy.among e (mem_get member),
    (get_limits c now key).1.symm ▸ roomy.room⟩

theorem set [Add τ] (roomy : Roomy keys c) (known : key ∈ keys) (now : τ) (value : β) :
    Roomy keys (c.set now key value) where
  distinct := roomy.distinct.set now key value
  among e member := by
    rcases mem_set member with old | ⟨atKey, _⟩
    · exact roomy.among e old
    · exact atKey ▸ known
  room := roomy.room

/-- There is room for the entry under a key besides those under the others. -/
theorem size_lt (roomy : Roomy keys c) (known : key ∈ keys) : (c.erase key).size < c.capacity := by
  have others : ∀ e ∈ (c.erase key).entries, e.key ∈ keys.erase key := fun e member => by
    have apart : e.key ≠ key := by simpa using (List.mem_filter.mp member).2
    exact (List.mem_erase_of_ne apart).mpr (roomy.among e (mem_erase member))
  have fewer := (roomy.distinct.erase key).size_le others
  have some_ := List.length_pos_of_mem known
  rw [List.length_erase_of_mem known] at fewer
  have room := roomy.room
  omega

end Roomy

end CodeAtlas.Cache
