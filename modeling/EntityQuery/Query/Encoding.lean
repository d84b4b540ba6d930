import EntityQuery.Json.Basic
import EntityQuery.Query.Basic
import EntityQuery.Record.Basic

/-!
# Queries and records as JSON

Every structure is written as an object of all its fields in a fixed order. A missing value is null, a set of
columns is `"all"` or an object with the sorted names, and the attributes of a record are sorted by name.
-/

namespace EntityQuery

/-- Writes a value that may be missing. -/
def Json.ofOption {α : Type} (encode : α → Json) : Option α → Json
  | none => .null
  | some x => encode x

/-- Writes a text that may be missing. -/
def Json.ofText? (text : Option String) : Json := Json.ofOption .string text

/-- Writes a word that may be missing. -/
def Json.ofUInt32? (n : Option UInt32) : Json := Json.ofOption .ofUInt32 n

/-- Writes an operator as its name. -/
def Operator.encode (op : Operator) : Json := .string op.name

/-- Writes a junction as its name. -/
def Junction.encode (j : Junction) : Json := .string j.name

/-- Writes a kind of join as its name. -/
def JoinKind.encode (k : JoinKind) : Json := .string k.name

/-- Writes a direction as its name. -/
def Direction.encode (d : Direction) : Json := .string d.name

/-- Writes columns. -/
def Columns.encode : Columns → Json
  | .all => .string "all"
  | .only set => .object [("columns", .ofStrings set.names)]

/-- Writes a condition. -/
def Condition.encode (c : Condition) : Json :=
  .object [
    ("entity_name", .ofText? c.scope),
    ("attribute_name", .string c.attributeName),
    ("operator", c.operator.encode),
    ("values", .array c.values)]

mutual

/-- Writes a filter. -/
def Filter.encode : Filter → Json
  | ⟨junction, conditions, filters⟩ =>
    .object [
      ("filter_operator", junction.encode),
      ("conditions", .array (conditions.map Condition.encode)),
      ("filters", .array (Filter.encodeAll filters))]

/-- Writes the filters of a list. -/
def Filter.encodeAll : List Filter → List Json
  | [] => []
  | f :: rest => Filter.encode f :: Filter.encodeAll rest

end

mutual

/-- Writes a link. -/
def Link.encode : Link → Json
  | ⟨fromEntity, fromAttribute, toEntity, toAttribute, aliasName, kind, columns, criteria, links⟩ =>
    .object [
      (JoinKey.fromEntity.name, .ofText? fromEntity),
      (JoinKey.fromAttribute.name, .ofText? fromAttribute),
      (JoinKey.toEntity.name, .ofText? toEntity),
      (JoinKey.toAttribute.name, .ofText? toAttribute),
      ("entity_alias", .ofText? aliasName),
      ("join_operator", kind.encode),
      ("columns", columns.encode),
      ("link_criteria", .ofOption Filter.encode criteria),
      ("link_entities", .array (Link.encodeAll links))]

/-- Writes the links of a list. -/
def Link.encodeAll : List Link → List Json
  | [] => []
  | l :: rest => Link.encode l :: Link.encodeAll rest

end

/-- Writes a sort key. -/
def SortKey.encode (k : SortKey) : Json :=
  .object [("attribute_name", .string k.attributeName), ("order_type", k.direction.encode)]

/-- Writes a paging. -/
def Paging.encode (p : Paging) : Json :=
  .object [
    ("page_number", .ofUInt32 p.pageNumber),
    ("count", .ofUInt32? p.pageSize),
    ("paging_cookie", .ofText? p.cookie),
    ("return_total_record_count", .bool p.wantsTotal)]

/-- Writes a query. -/
def Query.encode (q : Query) : Json :=
  .object [
    ("entity_name", .string q.entity),
    ("column_set", q.columns.encode),
    ("criteria", .ofOption Filter.encode q.criteria),
    ("link_entities", .array (Link.encodeAll q.links)),
    ("orders", .array (q.sortKeys.map SortKey.encode)),
    ("page_info", q.paging.encode),
    ("top_count", .ofUInt32? q.top),
    ("distinct", .bool q.distinct),
    ("no_lock", .bool q.noLock)]

/-- Writes an identifier as its text. -/
def Identifier.encode (i : Identifier) : Json := .string i.text

/-- Writes a record. -/
def Record.encode (r : Record) : Json :=
  .object [
    ("logical_name", .string r.logicalName),
    ("id", .ofOption Identifier.encode r.id),
    ("attributes", .object r.attributes.entries)]

end EntityQuery
