import EntityQuery.Query.Columns
import EntityQuery.Query.Filter

/-!
# Links

A link joins the records of another entity to a row by a pair of attributes. Its scope is the name under
which conditions and results speak of the joined record. Links nest: those of a link start from the
record it joined.
-/

namespace EntityQuery

/-- What becomes of a row for which a link finds no record. -/
inductive JoinKind where
  /-- It is dropped. -/
  | inner
  /-- It is kept with the scope unbound. -/
  | leftOuter
  /-- It is dropped, as with `inner`. -/
  | natural
deriving DecidableEq, Inhabited

/-- The name of the join in written queries. -/
def JoinKind.name : JoinKind → String
  | .inner => "inner"
  | .leftOuter => "left_outer"
  | .natural => "natural"

/-- The four parts that a link cannot do without when it is followed. -/
inductive JoinKey where
  | fromEntity
  | fromAttribute
  | toEntity
  | toAttribute
deriving DecidableEq

/-- The name of the part in written queries and messages. -/
def JoinKey.name : JoinKey → String
  | .fromEntity => "link_from_entity_name"
  | .fromAttribute => "link_from_attribute_name"
  | .toEntity => "link_to_entity_name"
  | .toAttribute => "link_to_attribute_name"

/-- A join to the records of another entity. -/
structure Link where
  fromEntity : Option String := none
  fromAttribute : Option String := none
  toEntity : Option String := none
  toAttribute : Option String := none
  aliasName : Option String := none
  kind : JoinKind := .inner
  columns : Columns := .empty
  criteria : Option Filter := none
  links : List Link := []

namespace Link

instance : Inhabited Link := ⟨{}⟩

/-- The name of the joined record in its row: the alias, else the target entity. -/
def scope? (l : Link) : Option String := l.aliasName.or l.toEntity

end Link

end EntityQuery
