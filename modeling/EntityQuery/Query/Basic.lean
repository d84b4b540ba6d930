import EntityQuery.Query.Link

/-!
# Queries

A query describes which records of an entity are wanted and in which form: columns, criteria, links, sort
keys, paging and caps.
-/

namespace EntityQuery

/-- The direction of a sort key. -/
inductive Direction where
  | ascending
  | descending
deriving DecidableEq, Inhabited

/-- The name of the direction in written queries. -/
def Direction.name : Direction → String
  | .ascending => "ascending"
  | .descending => "descending"

/-- An attribute to sort by. -/
structure SortKey where
  attributeName : String := ""
  direction : Direction := .ascending
deriving DecidableEq, Inhabited

/-- Which page of the result is wanted. -/
structure Paging where
  /-- The number of the page, the first page being one. -/
  pageNumber : UInt32 := 1
  /-- The number of records on a page, `none` when the backend may choose. -/
  pageSize : Option UInt32 := none
  /-- The token that the backend gave with the page before. -/
  cookie : Option String := none
  /-- Whether the backend is asked for the total number of records. -/
  wantsTotal : Bool := false
deriving DecidableEq

instance : Inhabited Paging := ⟨{}⟩

/-- A query for the records of an entity. -/
structure Query where
  entity : String
  columns : Columns := .empty
  criteria : Option Filter := none
  links : List Link := []
  sortKeys : List SortKey := []
  paging : Paging := {}
  /-- The greatest number of records wanted. -/
  top : Option UInt32 := none
  /-- Whether equal records are returned once. -/
  distinct : Bool := false
  /-- Whether rows are read without locks. -/
  noLock : Bool := true

namespace Query

instance : Inhabited Query := ⟨{ entity := "" }⟩

/-- Adds a filter that must hold as well as the present criteria. -/
def restrict (q : Query) (added : Filter) : Query :=
  { q with criteria := some (match q.criteria with
      | none => added
      | some root => root.conjoin added) }

/-- The query for the page after one that came with a cookie. -/
def nextPage (q : Query) (cookie : Option String) : Query :=
  { q with paging := { q.paging with pageNumber := q.paging.pageNumber + 1, cookie } }

end Query

end EntityQuery
