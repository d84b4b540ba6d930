import EntityQuery.Query.Basic
import EntityQuery.Store.Row

/-!
# Projection

A result record has the name and the identifier of the root record, the selected attributes of the root
record, and the selected attributes of every bound link under `<scope>.<attribute>`.
-/

namespace EntityQuery

/-- The name of a linked attribute in a result record. -/
def qualified (scope name : String) : String := scope ++ "." ++ name

/-- Adds the attributes that a column set selects from the record of a scope, if the scope is bound. -/
def addLinked (row : Row) (scope : String) (columns : Columns) (attributes : SortedMap Json) :
    SortedMap Json :=
  match row scope with
  | none => attributes
  | some linked =>
    let selected := linked.attributes.entries.filter fun e => columns.contains e.1
    attributes.insertAll (selected.map fun e => (qualified scope e.1, e.2))

mutual

/-- Adds what a link and the links below it select. A link without a scope adds nothing. -/
def Link.project (row : Row) : Link → SortedMap Json → SortedMap Json
  | ⟨_, _, toEntity, _, aliasName, _, columns, _, links⟩, attributes =>
    match aliasName.or toEntity with
    | none => attributes
    | some scope => Link.projectAll row links (addLinked row scope columns attributes)

/-- Adds what the links of a list select, in order. -/
def Link.projectAll (row : Row) : List Link → SortedMap Json → SortedMap Json
  | [], attributes => attributes
  | l :: rest, attributes => Link.projectAll row rest (Link.project row l attributes)

end

/-- The result record of a row. A row that does not bind the entity has an empty one. -/
def Query.project (q : Query) (row : Row) : Record :=
  match row q.entity with
  | none => default
  | some root =>
    { logicalName := root.logicalName
      id := root.id
      attributes := Link.projectAll row q.links (root.attributes.filter fun name _ => q.columns.contains name) }

end EntityQuery
