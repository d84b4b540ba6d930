import EntityQuery.Query.Condition

/-!
# Filters

A filter is a tree. Each node joins conditions and nested filters by `and` or by `or`.
-/

namespace EntityQuery

/-- How a filter node joins its children. -/
inductive Junction where
  | and
  | or
deriving DecidableEq, Inhabited

namespace Junction

/-- The name of the junction in written queries. -/
def name : Junction → String
  | .and => "and"
  | .or => "or"

/-- Joins the outcomes of the children. A node without children accepts. -/
def combine : Junction → List Bool → Bool
  | .and, outcomes => outcomes.all id
  | .or, outcomes => outcomes.isEmpty || outcomes.any id

end Junction

/-- A node of a filter tree. -/
structure Filter where
  junction : Junction := .and
  conditions : List Condition := []
  filters : List Filter := []

namespace Filter

/-- The node that joins nothing by `and`. -/
def empty : Filter := {}

instance : Inhabited Filter := ⟨empty⟩

/-- Appends a condition. -/
def addCondition (f : Filter) (c : Condition) : Filter := { f with conditions := f.conditions ++ [c] }

/-- Appends a nested filter. -/
def addNested (f : Filter) (g : Filter) : Filter := { f with filters := f.filters ++ [g] }

/-- Whether the node joins nothing. -/
def isEmpty (f : Filter) : Bool := f.conditions.isEmpty && f.filters.isEmpty

mutual

/-- The number of nodes on the longest way down, one for a lone node. -/
def depth : Filter → Nat
  | ⟨_, _, filters⟩ => depthOfAll filters + 1

/-- The greatest depth of the filters of a list, zero for none. -/
def depthOfAll : List Filter → Nat
  | [] => 0
  | f :: filters => max (depth f) (depthOfAll filters)

end

/-- The filter that accepts what both accept. A root that joins by `and` takes the second filter as its
last child; any other root becomes the first child of a new root. -/
def conjoin (root added : Filter) : Filter :=
  match root.junction with
  | .and => root.addNested added
  | .or => { filters := [root, added] }

end Filter

end EntityQuery
