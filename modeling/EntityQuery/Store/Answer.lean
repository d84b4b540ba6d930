import EntityQuery.Store.Join
import EntityQuery.Store.Projection
import EntityQuery.Store.Ranking

/-!
# Answering a query from records

`Query.answer` takes records and a query to a page. The rows of the entity are joined along the links, filtered,
sorted and projected; then repeated records are dropped, the result is cut at the cap, and the page is cut
out of it.
-/

namespace EntityQuery

/-- One page of a result. -/
structure Page where
  records : List Record := []
  /-- Whether there is a page after this one. -/
  more : Bool := false
  /-- The token that the query for the next page hands back. -/
  cookie : Option String := none
  /-- The number of records of the whole result, if it was asked for and is known. -/
  total : Option Nat := none

instance : Inhabited Page := ⟨{}⟩

/-! ## Paging -/

namespace Paging

/-- The number of the page, the page zero being the first as well. -/
def effectiveNumber (p : Paging) : Nat := max p.pageNumber.toNat 1

/-- The index of the first record of the page. -/
def start (p : Paging) (size : UInt32) : Nat := (p.effectiveNumber - 1) * size.toNat

/-- The index after the last record of the page, in a result of `total` records. -/
def stop (p : Paging) (size : UInt32) (total : Nat) : Nat := min (p.start size + size.toNat) total

/-- The token given with a page that is not the last one. -/
def nextCookie (p : Paging) : String := "page:" ++ toString p.effectiveNumber

/-- Cuts a page of a size out of a result. -/
def cut (p : Paging) (size : UInt32) (records : List Record) : Page :=
  let stop := p.stop size records.length
  let more := decide (stop < records.length)
  { records := (records.take stop).drop (p.start size)
    more
    cookie := if more then some p.nextCookie else none
    total := if p.wantsTotal then some records.length else none }

/-- The page that holds a whole result. -/
def whole (p : Paging) (records : List Record) : Page :=
  { records, total := if p.wantsTotal then some records.length else none }

end Paging

/-! ## Answers -/

namespace Query

/-- The rows of the entity, one for each of its records. -/
def rootRows (q : Query) (records : List Record) : List Row :=
  (records.filter fun r => r.logicalName == q.entity).map fun r => .single q.entity r

/-- The rows after all links. -/
def joinedRows (q : Query) (records : List Record) : Except QueryError (List Row) :=
  Link.followAll records q.entity q.links (q.rootRows records)

/-- The rows that pass the criteria. -/
def filterRows (q : Query) (rows : List Row) : Except QueryError (List Row) :=
  match q.criteria with
  | none => .ok rows
  | some criteria => keepThat (fun row => criteria.holds row q.entity) rows

/-- The result records of filtered rows: sorted, projected, without repetition if wanted, and capped. -/
def present (q : Query) (rows : List Row) : List Record :=
  let projected := (SortKey.sortRows q.sortKeys q.entity rows).map q.project
  let unique := if q.distinct then Record.distinct projected else projected
  match q.top with
  | none => unique
  | some top => unique.take top.toNat

/-- The page of a result that the query wants. A cap turns paging off. -/
def paginate (q : Query) (records : List Record) : Page :=
  match q.top, q.paging.pageSize with
  | none, some size => q.paging.cut size records
  | _, _ => q.paging.whole records

/-- The records of the whole result. -/
def result (q : Query) (records : List Record) : Except QueryError (List Record) :=
  if q.entity.isEmpty then .error .noEntityName
  else do
    let joined ← q.joinedRows records
    let rows ← q.filterRows joined
    return q.present rows

/-- The page that answers a query. -/
def answer (q : Query) (records : List Record) : Except QueryError Page :=
  (q.result records).map q.paginate

end Query

end EntityQuery
