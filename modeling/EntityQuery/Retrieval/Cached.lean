import EntityQuery.Retrieval.Cache
import EntityQuery.Retrieval.Scan

/-!
# Retrieval through a cache

`fetchCached` looks the key of a query up first. Records that are found are the result; otherwise they are
retrieved and kept, and only then are they the result. A failure at any point is the result, and what failed
is not kept. Records are kept as the backend gave them and converted by each retrieval for itself.
-/

namespace EntityQuery

variable {σ κ : Type}

/-- Retrieves records through a cache. -/
def fetchCached (extent : Extent) (b : Backend σ) (cache : Cache κ) (expires : Instant) (q : Query)
    (s : σ) (c : κ) : Except QueryError (List Record) × Query × σ × κ :=
  let key := q.cacheKey extent
  match cache.get key c with
  | (.error e, c) => (.error e, q, s, c)
  | (.ok (some records), c) => (.ok records, q, s, c)
  | (.ok none, c) =>
    match fetch extent b q s with
    | (.error e, q, s) => (.error e, q, s, c)
    | (.ok records, q, s) =>
      match cache.set key records expires c with
      | (.error e, c) => (.error e, q, s, c)
      | (.ok _, c) => (.ok records, q, s, c)

/-- Retrieves records through a cache and converts them. -/
def retrieveCached {α : Type} (convert : Record → Except QueryError α) (extent : Extent) (b : Backend σ)
    (cache : Cache κ) (expires : Instant) (q : Query) (s : σ) (c : κ) :
    Except QueryError (List α) × Query × σ × κ :=
  match fetchCached extent b cache expires q s c with
  | (records, q, s, c) => (records.bind (convertAll convert), q, s, c)

end EntityQuery
