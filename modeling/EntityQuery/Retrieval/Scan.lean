import EntityQuery.Query.Fingerprint
import EntityQuery.Retrieval.Backend

/-!
# Retrieval

`fetchPage` asks a backend for the configured page of a query. `fetchAll` asks for that page and the pages
after it: the query moves on to the next page number and the cookie of the last answer until an answer says
that there is no more, and then goes back to where it was. The query is passed along and given back with the
result, so that it is seen what a retrieval leaves of it.
-/

namespace EntityQuery

/-- The result of an operation on a query with a backend: the outcome, the query and the backend's state. -/
abbrev Retrieval (σ α : Type) := Except QueryError α × Query × σ

variable {σ : Type}

/-- Asks for pages from the configured one on and joins their records. An answer that promises a page after
the one with the greatest number is a failure. -/
def scan (b : Backend σ) (q : Query) (s : σ) : Retrieval σ (List Record) :=
  match b q s with
  | (.error e, s) => (.error e, q, s)
  | (.ok page, s) =>
    if page.more then
      if q.paging.pageNumber.toNat + 1 < 2 ^ 32 then
        match scan b (q.nextPage page.cookie) s with
        | (rest, q, s) => (rest.map (page.records ++ ·), q, s)
      else (.error .pagesExhausted, q, s)
    else (.ok page.records, q, s)
termination_by 2 ^ 32 - q.paging.pageNumber.toNat
decreasing_by
  simp only [Query.nextPage, UInt32.toNat_add, UInt32.reduceToNat]
  omega

/-- The configured page. A query without an entity name is not asked. -/
def fetchPage (b : Backend σ) (q : Query) (s : σ) : Retrieval σ (List Record) :=
  if q.entity.isEmpty then (.error .unnamedQuery, q, s)
  else match b q s with
    | (answer, s) => (answer.map (·.records), q, s)

/-- All pages from the configured one on. The page number and the cookie are put back afterwards. -/
def fetchAll (b : Backend σ) (q : Query) (s : σ) : Retrieval σ (List Record) :=
  if q.entity.isEmpty then (.error .unnamedQuery, q, s)
  else match scan b q s with
    | (records, moved, s) =>
      let paging := { moved.paging with pageNumber := q.paging.pageNumber, cookie := q.paging.cookie }
      (records, { moved with paging }, s)

/-- One page or all of them. -/
def fetch (extent : Extent) : Backend σ → Query → σ → Retrieval σ (List Record) :=
  match extent with
  | .page => fetchPage
  | .all => fetchAll

/-- Converts records one by one; the first failure is the result. -/
def convertAll {α : Type} (convert : Record → Except QueryError α) : List Record → Except QueryError (List α)
  | [] => .ok []
  | r :: rest => do
    let x ← convert r
    let xs ← convertAll convert rest
    return x :: xs

/-- Retrieves records and converts them. -/
def retrieve {α : Type} (convert : Record → Except QueryError α) (extent : Extent) (b : Backend σ)
    (q : Query) (s : σ) : Retrieval σ (List α) :=
  match fetch extent b q s with
  | (records, q, s) => (records.bind (convertAll convert), q, s)

end EntityQuery
