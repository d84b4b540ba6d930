import EntityQuery.Json.Decode
import EntityQuery.Query.Encoding
import EntityQuery.Settings.Basic

/-!
# Settings as JSON

Settings are written as objects of all their fields, a page size that is not set left out. They are read from
objects, or from arrays of the fields in order; what is missing has its default.
-/

namespace EntityQuery

open Json

/-! ## Writing -/

/-- Writes the presets of queries. -/
def QueryPresets.encode (d : QueryPresets) : Json :=
  let pageSize := match d.pageSize with
    | none => []
    | some n => [("page_size", Json.ofUInt32 n)]
  .object (("no_lock", .bool d.noLock) :: pageSize ++ [("return_total_record_count", .bool d.wantsTotal)])

/-- Writes the settings of caches. -/
def CacheSettings.encode (s : CacheSettings) : Json := .object [("ttl_secs", .number (.ofUInt64 s.ttlSecs))]

/-- Writes settings. -/
def Settings.encode (s : Settings) : Json := .object [("query", s.query.encode), ("cache", s.cache.encode)]

/-! ## Reading -/

/-- The fields of a structure whose fields may all be missing; an array may end early. -/
def Json.partialFields? (names : List String) : Json → Option (List (Option Json))
  | .object members => some (names.map fun name => members.lookup name)
  | .array items =>
    if items.length ≤ names.length then
      some (items.map some ++ List.replicate (names.length - items.length) none)
    else none
  | _ => none

/-- Reads a field that has a value when it is missing. -/
def Json.default? {α : Type} (missing : α) (field : Option Json) (item : Json → Option α) : Option α :=
  match field with
  | none => some missing
  | some v => item v

/-- Reads the presets of queries. -/
def QueryPresets.decode? (v : Json) : Option QueryPresets := do
  match ← v.partialFields? ["no_lock", "page_size", "return_total_record_count"] with
  | [noLock, pageSize, wantsTotal] =>
    let noLock ← default? true noLock asBool?
    let pageSize ← optional? pageSize asUInt32?
    let wantsTotal ← default? false wantsTotal asBool?
    return { noLock, pageSize, wantsTotal }
  | _ => none

/-- Reads the settings of caches. -/
def CacheSettings.decode? (v : Json) : Option CacheSettings := do
  match ← v.partialFields? ["ttl_secs"] with
  | [ttlSecs] => return { ttlSecs := ← default? 3600 ttlSecs asUInt64? }
  | _ => none

/-- Reads settings. -/
def Settings.decode? (v : Json) : Option Settings := do
  match ← v.partialFields? ["query", "cache"] with
  | [query, cache] =>
    let query ← default? {} query QueryPresets.decode?
    let cache ← default? {} cache CacheSettings.decode?
    return { query, cache }
  | _ => none

end EntityQuery
