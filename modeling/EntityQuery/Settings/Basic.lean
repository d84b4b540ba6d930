import EntityQuery.Instant
import EntityQuery.Query.Basic

/-!
# Settings

Presets of new queries and the time that cached records live. Every setting has a value when it is not
given.
-/

namespace EntityQuery

/-- What a new query takes over. -/
structure QueryPresets where
  /-- Whether rows are read without locks. -/
  noLock : Bool := true
  /-- The number of records on a page. -/
  pageSize : Option UInt32 := none
  /-- Whether the backend is asked for the total number of records. -/
  wantsTotal : Bool := false
deriving DecidableEq

/-- How long cached records live. -/
structure CacheSettings where
  /-- The time to live in seconds. -/
  ttlSecs : UInt64 := 3600
deriving DecidableEq

/-- All settings. -/
structure Settings where
  query : QueryPresets := {}
  cache : CacheSettings := {}
deriving DecidableEq

/-- When records that are cached at an instant expire. The time to live is taken as a signed count, and the last
instant stands for one past it. -/
def CacheSettings.expiresAt (s : CacheSettings) (now : Instant) : Instant :=
  ((Duration.ofSecs? (min s.ttlSecs.toNat greatestCount)).bind now.add?).getD .last

/-- A new query with presets. -/
def QueryPresets.query (p : QueryPresets) (entity : String) : Query :=
  { entity, noLock := p.noLock, paging := { pageSize := p.pageSize, wantsTotal := p.wantsTotal } }

end EntityQuery
