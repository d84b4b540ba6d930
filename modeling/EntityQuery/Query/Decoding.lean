import EntityQuery.Json.Decode
import EntityQuery.Query.Basic
import EntityQuery.Record.Basic

/-!
# Queries and records from JSON

The readers take what `Query.encode` and its companions write, and more: structures as arrays of all their
fields, missing members for fields that may be null, unknown members, names in any order in a set of columns,
and every spelling of an identifier. What a reader does not take has no value.
-/

namespace EntityQuery

open Json

/-- Reads an operator. -/
def Operator.decode? : Json → Option Operator :=
  asName? fun name => Operator.all.find? fun op => op.name == name

/-- Reads a junction. -/
def Junction.decode? : Json → Option Junction :=
  asName? fun name => [Junction.and, .or].find? fun j => j.name == name

/-- Reads a kind of join. -/
def JoinKind.decode? : Json → Option JoinKind :=
  asName? fun name => [JoinKind.inner, .leftOuter, .natural].find? fun k => k.name == name

/-- Reads a direction. -/
def Direction.decode? : Json → Option Direction :=
  asName? fun name => [Direction.ascending, .descending].find? fun d => d.name == name

/-- Reads columns: a set of names has its member alone. -/
def Columns.decode? : Json → Option Columns
  | .string "all" => some .all
  | .object [("all", .null)] => some .all
  | .object [("columns", v)] => (v.asList? asString?).map fun names => .only (.ofList names)
  | _ => none

/-- Reads a condition. -/
def Condition.decode? (v : Json) : Option Condition := do
  match ← v.fields? ["entity_name", "attribute_name", "operator", "values"] with
  | [scope, attributeName, operator, values] =>
    let scope ← optional? scope asString?
    let attributeName ← required? attributeName asString?
    let operator ← required? operator Operator.decode?
    let values ← required? values (asList? some)
    return { scope, attributeName, operator, values }
  | _ => none

mutual

/-- Reads a filter. -/
def Filter.decode? : Json → Option Filter
  | .object members => do
    let junction ← required? (members.lookup "filter_operator") Junction.decode?
    let conditions ← required? (members.lookup "conditions") (asList? Condition.decode?)
    let filters ← Filter.decodeMember? members
    return { junction, conditions, filters }
  | .array [junction, conditions, filters] => do
    let junction ← Junction.decode? junction
    let conditions ← conditions.asList? Condition.decode?
    let filters ← Filter.decodeList? filters
    return { junction, conditions, filters }
  | _ => none

/-- Reads an array of filters. -/
def Filter.decodeList? : Json → Option (List Filter)
  | .array items => Filter.decodeItems? items
  | _ => none

/-- Reads the filters of a list. -/
def Filter.decodeItems? : List Json → Option (List Filter)
  | [] => some []
  | v :: rest => do
    let f ← Filter.decode? v
    let fs ← Filter.decodeItems? rest
    return f :: fs

/-- Reads the nested filters among the members of an object. -/
def Filter.decodeMember? : List (String × Json) → Option (List Filter)
  | [] => none
  | (name, v) :: rest =>
    if name == "filters" then Filter.decodeList? v else Filter.decodeMember? rest

end

/-- Reads the fields of a link other than its links. -/
def Link.ofFields? (links : List Link) (fromEntity fromAttribute toEntity toAttribute aliasName kind columns
    criteria : Option Json) : Option Link := do
  let fromEntity ← optional? fromEntity asString?
  let fromAttribute ← optional? fromAttribute asString?
  let toEntity ← optional? toEntity asString?
  let toAttribute ← optional? toAttribute asString?
  let aliasName ← optional? aliasName asString?
  let kind ← required? kind JoinKind.decode?
  let columns ← required? columns Columns.decode?
  let criteria ← optional? criteria Filter.decode?
  return { fromEntity, fromAttribute, toEntity, toAttribute, aliasName, kind, columns, criteria, links }

mutual

/-- Reads a link. -/
def Link.decode? : Json → Option Link
  | .object members => do
    let links ← Link.decodeMember? members
    Link.ofFields? links (members.lookup JoinKey.fromEntity.name) (members.lookup JoinKey.fromAttribute.name)
      (members.lookup JoinKey.toEntity.name) (members.lookup JoinKey.toAttribute.name)
      (members.lookup "entity_alias") (members.lookup "join_operator") (members.lookup "columns")
      (members.lookup "link_criteria")
  | .array [fromEntity, fromAttribute, toEntity, toAttribute, aliasName, kind, columns, criteria, links] => do
    let links ← Link.decodeList? links
    Link.ofFields? links (some fromEntity) (some fromAttribute) (some toEntity) (some toAttribute)
      (some aliasName) (some kind) (some columns) (some criteria)
  | _ => none

/-- Reads an array of links. -/
def Link.decodeList? : Json → Option (List Link)
  | .array items => Link.decodeItems? items
  | _ => none

/-- Reads the links of a list. -/
def Link.decodeItems? : List Json → Option (List Link)
  | [] => some []
  | v :: rest => do
    let l ← Link.decode? v
    let ls ← Link.decodeItems? rest
    return l :: ls

/-- Reads the nested links among the members of an object. -/
def Link.decodeMember? : List (String × Json) → Option (List Link)
  | [] => none
  | (name, v) :: rest =>
    if name == "link_entities" then Link.decodeList? v else Link.decodeMember? rest

end

/-- Reads a sort key. -/
def SortKey.decode? (v : Json) : Option SortKey := do
  match ← v.fields? ["attribute_name", "order_type"] with
  | [attributeName, direction] =>
    let attributeName ← required? attributeName asString?
    let direction ← required? direction Direction.decode?
    return { attributeName, direction }
  | _ => none

/-- Reads a paging. -/
def Paging.decode? (v : Json) : Option Paging := do
  match ← v.fields? ["page_number", "count", "paging_cookie", "return_total_record_count"] with
  | [pageNumber, pageSize, cookie, wantsTotal] =>
    let pageNumber ← required? pageNumber asUInt32?
    let pageSize ← optional? pageSize asUInt32?
    let cookie ← optional? cookie asString?
    let wantsTotal ← required? wantsTotal asBool?
    return { pageNumber, pageSize, cookie, wantsTotal }
  | _ => none

/-- Reads a query. -/
def Query.decode? (v : Json) : Option Query := do
  match ← v.fields? ["entity_name", "column_set", "criteria", "link_entities", "orders", "page_info",
      "top_count", "distinct", "no_lock"] with
  | [entity, columns, criteria, links, sortKeys, paging, top, distinct, noLock] =>
    let entity ← required? entity asString?
    let columns ← required? columns Columns.decode?
    let criteria ← optional? criteria Filter.decode?
    let links ← required? links Link.decodeList?
    let sortKeys ← required? sortKeys (asList? SortKey.decode?)
    let paging ← required? paging Paging.decode?
    let top ← optional? top asUInt32?
    let distinct ← required? distinct asBool?
    let noLock ← required? noLock asBool?
    return { entity, columns, criteria, links, sortKeys, paging, top, distinct, noLock }
  | _ => none

/-- Reads an identifier in any spelling. -/
def Identifier.decode? (v : Json) : Option Identifier := v.asString?.bind Identifier.parse?

/-- Reads an object as attributes. -/
def Record.decodeAttributes? : Json → Option (SortedMap Json)
  | .object members => some (.ofList members)
  | _ => none

/-- Reads a record. -/
def Record.decode? (v : Json) : Option Record := do
  match ← v.fields? ["logical_name", "id", "attributes"] with
  | [logicalName, id, attributes] =>
    let logicalName ← required? logicalName asString?
    let id ← optional? id Identifier.decode?
    let attributes ← required? attributes Record.decodeAttributes?
    return { logicalName, id, attributes }
  | _ => none

end EntityQuery
