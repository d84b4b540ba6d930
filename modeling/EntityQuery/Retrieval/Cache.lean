import EntityQuery.Error
import EntityQuery.Instant
import EntityQuery.Record.Basic

/-!
# Caches

A cache keeps lists of records under keys until an instant. `TimedCache` keeps them in memory: an entry is
live while its expiry is after the present instant, and the look-up that finds an expired entry removes it.
`Cache` is the interface that retrieval uses; its operations may fail.
-/

namespace EntityQuery

/-- Records that are kept until an instant. -/
structure CacheEntry where
  records : List Record
  expires : Instant

/-- Whether an entry is live at an instant. -/
def CacheEntry.isLive (e : CacheEntry) (now : Instant) : Bool := now < e.expires

/-- Entries under keys. -/
structure TimedCache where
  entries : SortedMap CacheEntry := .empty

namespace TimedCache

/-- The number of entries, expired ones that were not removed included. -/
def size (c : TimedCache) : Nat := c.entries.entries.length

/-- Keeps records under a key, in place of what was there. -/
def set (c : TimedCache) (key : String) (records : List Record) (expires : Instant) : TimedCache :=
  ⟨c.entries.insert key { records, expires }⟩

/-- The live records under a key. An expired entry under the key is removed. -/
def get (c : TimedCache) (key : String) (now : Instant) : Option (List Record) × TimedCache :=
  match c.entries.get? key with
  | none => (none, c)
  | some e => if e.isLive now then (some e.records, c) else (none, ⟨c.entries.erase key⟩)

/-- Removes every expired entry and gives their number. -/
def purge (c : TimedCache) (now : Instant) : Nat × TimedCache :=
  let live : TimedCache := ⟨c.entries.filter fun _ e => e.isLive now⟩
  (c.size - live.size, live)

/-- Removes every entry. -/
def clear (_ : TimedCache) : TimedCache := ⟨.empty⟩

end TimedCache

/-- The operations of a cache with a state. -/
structure Cache (κ : Type) where
  get : String → κ → Except QueryError (Option (List Record)) × κ
  set : String → List Record → Instant → κ → Except QueryError Unit × κ

namespace Cache

/-- The cache in memory at an instant. -/
def timed (now : Instant) : Cache TimedCache where
  get key c :=
    match c.get key now with
    | (found, c) => (.ok found, c)
  set key records expires c := (.ok (), c.set key records expires)

variable {κ : Type}

/-- A cache whose writes fail with given words. -/
def refuseWrites (text : String) (cache : Cache κ) : Cache κ :=
  { cache with set := fun _ _ _ c => (.error (.reported .cache text), c) }

/-- A cache whose look-ups fail with given words. -/
def refuseReads (text : String) (cache : Cache κ) : Cache κ :=
  { cache with get := fun _ c => (.error (.reported .cache text), c) }

end Cache

end EntityQuery
