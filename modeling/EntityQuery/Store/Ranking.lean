import EntityQuery.Json.Order
import EntityQuery.Query.Basic
import EntityQuery.Store.Row

/-!
# Sorting rows

Rows are compared by the sort keys in order; the first key on which two rows differ decides. Sorting is
stable: rows that do not differ on any key keep their order.

Values of different kinds do not compare and count as equal, so the comparison orders the rows only where each
column has values of one kind, besides nulls. Sorting promises nothing for other rows: it may leave them in any
order, or notice that there is none and end without a result. `sortRows` gives one of the lists that they could
become, and `Query.answerBy` leaves open how rows are sorted.
-/

namespace EntityQuery

namespace SortKey

/-- Compares two rows by one key: null first when ascending, and last when descending. -/
def compareRows (k : SortKey) (entity : String) (a b : Row) : Ordering :=
  let order := (a.value entity k.attributeName).compareNullsFirst (b.value entity k.attributeName)
  match k.direction with
  | .ascending => order
  | .descending => order.swap

/-- Compares two rows by the keys of a list. -/
def compareAll (entity : String) (a b : Row) : List SortKey → Ordering
  | [] => .eq
  | k :: rest =>
    match k.compareRows entity a b with
    | .eq => compareAll entity a b rest
    | order => order

/-- The rows in the order of the keys. Where the keys do not order them, this is one result that sorting could have,
and not one that it promises. -/
def sortRows (keys : List SortKey) (entity : String) (rows : List Row) : List Row :=
  rows.mergeSort fun a b => compareAll entity a b keys != .gt

end SortKey

end EntityQuery
