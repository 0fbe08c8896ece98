import CodeAtlas.Number.Scalar

/-!
Bounded caches whose entries expire. Entries stand in order of use, the one used longest ago first:
a read moves the entry to the end, and an insertion into a full cache drops the first. Time is an
input of every operation that depends on it, in any type with an addition and an order.
-/

namespace CodeAtlas

/-- A kept value with the time from which it no longer counts. -/
structure Cache.Entry (τ β : Type) where
  key : String
  expires : τ
  value : β

/-- A cache of values of type `β` under texts. -/
structure Cache (τ β : Type) where
  /-- At most so many entries are kept. -/
  capacity : Nat
  /-- How long an entry lives when nothing else is said. -/
  lifetime : τ
  /-- Entries with different keys, the one used longest ago first. -/
  entries : List (Cache.Entry τ β)

namespace Cache

variable {τ β : Type}

/-- Why limits are refused. -/
inductive LimitFault (τ : Type) where
  | capacity (given : Number.Scalar)
  | lifetime (given : τ)

/-- The fault in words. -/
def LimitFault.message (text : τ → String) : LimitFault τ → String
  | capacity n => s!"maxsize must be >= 1, got {n.text}"
  | lifetime t => s!"ttl must be > 0, got {text t}"

/-- An empty cache. -/
def empty (capacity : Nat) (lifetime : τ) : Cache τ β :=
  ⟨capacity, lifetime, []⟩

/-- An empty cache; it has to hold an entry, and entries have to live for some time. -/
def create [LE τ] [DecidableLE τ] [OfNat τ 0] (capacity : Number.Scalar) (lifetime : τ) :
    Except (LimitFault τ) (Cache τ β) :=
  if capacity < 1 then .error (.capacity capacity)
  else if lifetime ≤ 0 then .error (.lifetime lifetime)
  else .ok (empty capacity.floor.toNat lifetime)

/-- The number of entries, expired ones included that were not met since. -/
def size (c : Cache τ β) : Nat :=
  c.entries.length

/-- The entry under a key, expired or not. -/
def entry? (c : Cache τ β) (key : String) : Option (Entry τ β) :=
  c.entries.find? fun e => e.key == key

/-- The cache without an entry under a key. -/
def erase (c : Cache τ β) (key : String) : Cache τ β :=
  { c with entries := c.entries.filter fun e => e.key != key }

/-- The live value under a key. The entry becomes the one used last; an expired entry is dropped. -/
def get [LE τ] [DecidableLE τ] (c : Cache τ β) (now : τ) (key : String) :
    Option β × Cache τ β :=
  match c.entry? key with
  | none => (none, c)
  | some e =>
    let others := c.erase key
    if e.expires ≤ now then (none, others)
    else (some e.value, { others with entries := others.entries ++ [e] })

/-- Keeps a value under a key for `lifetime`; the new entry is the one used last. Entries beyond the
capacity are dropped, the one used longest ago first. -/
def insert [Add τ] (c : Cache τ β) (now : τ) (key : String) (value : β) (lifetime : τ) :
    Cache τ β :=
  let entries := (c.erase key).entries ++ [⟨key, now + lifetime, value⟩]
  { c with entries := entries.drop (entries.length - c.capacity) }

/-- Keeps a value for as long as the cache says. -/
def set [Add τ] (c : Cache τ β) (now : τ) (key : String) (value : β) : Cache τ β :=
  c.insert now key value c.lifetime

/-- Drops the entry under a key; says whether there was one. -/
def invalidate (c : Cache τ β) (key : String) : Bool × Cache τ β :=
  ((c.entry? key).isSome, c.erase key)

/-- The cache without the entries whose keys start with `start`. -/
def eraseUnder (c : Cache τ β) (start : String) : Cache τ β :=
  { c with entries := c.entries.filter fun e => !start.isPrefixOf e.key }

/-- Drops the entries whose keys start with `start`; says how many there were. -/
def invalidateUnder (c : Cache τ β) (start : String) : Nat × Cache τ β :=
  let kept := c.eraseUnder start
  (c.size - kept.size, kept)

/-- Without any entry. -/
def clear (c : Cache τ β) : Cache τ β :=
  { c with entries := [] }

/-- The size in one line with the limits as they were given. -/
def summary (capacity lifetime : String) (c : Cache τ β) : String :=
  s!"TTLCache(maxsize={capacity}, ttl={lifetime}, len={c.size})"

end Cache

end CodeAtlas
