import EntityQuery.NameSet

/-!
# Columns

The attributes that a query, or a link of it, returns: all of them or an explicit set of names. Naming
columns replaces a set of all columns, so the last request decides.
-/

namespace EntityQuery

/-- The attributes to return. -/
inductive Columns where
  /-- Every attribute. -/
  | all
  /-- The named attributes. -/
  | only (names : NameSet)
deriving DecidableEq

namespace Columns

/-- No attributes. -/
def empty : Columns := .only .empty

instance : Inhabited Columns := ⟨empty⟩

/-- Adds names to an explicit set; a set of all columns becomes the set of the names. -/
def add (columns : Columns) (names : List String) : Columns :=
  match columns with
  | .all => .only (.ofList names)
  | .only set => .only (set.insertAll names)

/-- Whether the set is that of all columns. -/
def isAll : Columns → Bool
  | .all => true
  | .only _ => false

/-- Whether an attribute is returned. -/
def contains (columns : Columns) (name : String) : Bool :=
  match columns with
  | .all => true
  | .only set => set.contains name

/-- The explicit names in increasing order, none for all columns. -/
def names : Columns → List String
  | .all => []
  | .only set => set.names

end Columns

end EntityQuery
