import EntityQuery.Proofs.Json.Spellings
import EntityQuery.Proofs.NameSet
import EntityQuery.Query.Decoding

/-!
# Spellings of queries

What the readers of queries take: a value is read from its spellings and from nothing else. Every structure has the
spellings of its fields, through all nested filters and links; a set of columns can name its columns in any order and
more than once.

* `Filter.decode?_iff`, `Link.decode?_iff`: through all nested filters and links;
* `Query.decode?_iff`: for whole queries.
-/

namespace EntityQuery

open Json

/-! ## Names -/

theorem Operator.decode?_iff (op : Operator) (v : Json) : Operator.decode? v = some op ↔ SpellsName op.name v := by
  refine asName?_iff ?_ ?_ op v
  · intro op
    cases op <;> decide
  · decide

theorem Junction.decode?_iff (j : Junction) (v : Json) : Junction.decode? v = some j ↔ SpellsName j.name v := by
  refine asName?_iff ?_ ?_ j v
  · intro j
    cases j <;> decide
  · decide

theorem JoinKind.decode?_iff (k : JoinKind) (v : Json) : JoinKind.decode? v = some k ↔ SpellsName k.name v := by
  refine asName?_iff ?_ ?_ k v
  · intro k
    cases k <;> decide
  · decide

theorem Direction.decode?_iff (d : Direction) (v : Json) : Direction.decode? v = some d ↔ SpellsName d.name v := by
  refine asName?_iff ?_ ?_ d v
  · intro d
    cases d <;> decide
  · decide

/-! ## Columns -/

/-- All columns are spelled as a name, a set of columns by the list of its members in any order, with repetitions. -/
def Columns.Spells : Columns → Json → Prop
  | .all, v => SpellsName "all" v
  | .only set, v =>
    ∃ names, v = .object [("columns", .ofStrings names)] ∧ ∀ name, name ∈ names ↔ name ∈ set.names

theorem Json.asList?_asString?_iff (texts : List String) (v : Json) :
    v.asList? asString? = some texts ↔ v = .ofStrings texts := by
  have hitems : ∀ items, List.Forall₂ (SpellsAs .string) texts items ↔ items = texts.map .string := by
    induction texts with
    | nil => simp
    | cons text rest ih =>
      intro items
      cases items <;> simp [SpellsAs, ih]
  rw [asList?_iff asString?_iff]
  unfold SpellsList ofStrings
  simp only [hitems, exists_eq_right]

theorem Columns.decode?_iff (c : Columns) (v : Json) : Columns.decode? v = some c ↔ c.Spells v := by
  unfold decode?
  split
  · cases c <;> simp [Spells, SpellsName]
  · cases c <;> simp [Spells, SpellsName]
  · cases c <;> simp [Spells, SpellsName, asList?_asString?_iff, NameSet.ofList_eq_iff]
  · rename_i htext hkey hset
    refine iff_of_false nofun fun hspells => ?_
    cases c with
    | all =>
      rcases hspells with rfl | rfl
      · exact htext rfl
      · exact hkey rfl
    | only set =>
      obtain ⟨names, rfl, -⟩ := hspells
      exact hset _ rfl

/-! ## Conditions and filters -/

/-- The spellings of a condition. -/
def Condition.Spells (c : Condition) : Json → Prop :=
  SpellsStructure [
    ("entity_name", SpellsOptional (SpellsAs .string) c.scope),
    ("attribute_name", SpellsRequired (SpellsAs .string) c.attributeName),
    ("operator", SpellsRequired (fun op => SpellsName op.name) c.operator),
    ("values", SpellsRequired (SpellsList (SpellsAs id)) c.values)]

theorem Condition.decode?_iff (c : Condition) (v : Json) : Condition.decode? v = some c ↔ c.Spells v := by
  have hany : ∀ x v : Json, some v = some x ↔ SpellsAs id x v := by simp [SpellsAs]
  obtain ⟨scope, attributeName, operator, values⟩ := c
  refine bind_fields?_iff rfl fun given => ?_
  -- a list of another length is neither read nor one of the fields
  rcases given with _ | ⟨a, _ | ⟨b, _ | ⟨c, _ | ⟨d, _ | _⟩⟩⟩⟩ <;>
    simp [Option.bind_eq_some_iff, optional?_iff asString?_iff rfl, required?_iff asString?_iff,
      required?_iff Operator.decode?_iff, required?_iff (asList?_iff hany)]

mutual

/-- The spellings of a filter. -/
def Filter.Spells : Filter → Json → Prop
  | ⟨junction, conditions, filters⟩ =>
    SpellsStructure [
      ("filter_operator", SpellsRequired (fun j => SpellsName j.name) junction),
      ("conditions", SpellsRequired (SpellsList Condition.Spells) conditions),
      ("filters", SpellsArray (Filter.SpellsAll filters))]

/-- The spellings of the filters of a list. -/
def Filter.SpellsAll : List Filter → List Json → Prop
  | [], items => items = []
  | f :: filters, items => ∃ v rest, items = v :: rest ∧ Filter.Spells f v ∧ Filter.SpellsAll filters rest

end

theorem Filter.decodeMember?_eq (members : List (String × Json)) :
    Filter.decodeMember? members = required? (members.lookup "filters") Filter.decodeList? := by
  induction members with
  | nil => rfl
  | cons e rest ih =>
    rw [decodeMember?, List.lookup_cons, BEq.comm, ih]
    split_ifs with hname <;> simp [hname, required?]

/-- An object and an array of a filter are read alike. -/
theorem Filter.decode?_eq (v : Json) : Filter.decode? v =
    v.fields? ["filter_operator", "conditions", "filters"] >>= fun
      | [junction, conditions, filters] => do
        let junction ← required? junction Junction.decode?
        let conditions ← required? conditions (asList? Condition.decode?)
        let filters ← required? filters Filter.decodeList?
        return { junction, conditions, filters }
      | _ => none := by
  unfold decode?
  split
  · rw [decodeMember?_eq]
    rfl
  · rfl
  · rename_i hobject harray
    cases v with
    | object members => exact absurd rfl (hobject members)
    | array items =>
      rcases items with _ | ⟨a, _ | ⟨b, _ | ⟨c, _ | _⟩⟩⟩
      all_goals first | rfl | exact absurd rfl (harray a b c)
    | _ => rfl

theorem Filter.required?_decodeList?_iff {filters : List Filter} {field : Option Json} :
    required? field Filter.decodeList? = some filters ↔
      SpellsArray (fun items => Filter.decodeItems? items = some filters) field := by
  rcases field with _ | v
  · simp [required?, SpellsArray]
  · cases v <;> simp [required?, decodeList?, SpellsArray]

mutual

theorem Filter.decode?_iff : ∀ (f : Filter) (v : Json), Filter.decode? v = some f ↔ f.Spells v
  | ⟨junction, conditions, filters⟩, v => by
    rw [Filter.decode?_eq, Filter.Spells]
    refine bind_fields?_iff rfl fun given => ?_
    rcases given with _ | ⟨a, _ | ⟨b, _ | ⟨c, _ | _⟩⟩⟩ <;>
      simp [Option.bind_eq_some_iff, required?_iff Junction.decode?_iff,
        required?_iff (asList?_iff Condition.decode?_iff), Filter.required?_decodeList?_iff,
        Filter.decodeItems?_iff filters]

theorem Filter.decodeItems?_iff : ∀ (filters : List Filter) (items : List Json),
    Filter.decodeItems? items = some filters ↔ Filter.SpellsAll filters items
  | [], items => by cases items <;> simp [Filter.decodeItems?, Filter.SpellsAll, Option.bind_eq_some_iff]
  | f :: filters, items => by
    cases items <;>
      simp [Filter.decodeItems?, Filter.SpellsAll, Filter.decode?_iff f, Filter.decodeItems?_iff filters,
        Option.bind_eq_some_iff]

end

/-! ## Links -/

mutual

/-- The spellings of a link. -/
def Link.Spells : Link → Json → Prop
  | ⟨fromEntity, fromAttribute, toEntity, toAttribute, aliasName, kind, columns, criteria, links⟩ =>
    SpellsStructure [
      (JoinKey.fromEntity.name, SpellsOptional (SpellsAs .string) fromEntity),
      (JoinKey.fromAttribute.name, SpellsOptional (SpellsAs .string) fromAttribute),
      (JoinKey.toEntity.name, SpellsOptional (SpellsAs .string) toEntity),
      (JoinKey.toAttribute.name, SpellsOptional (SpellsAs .string) toAttribute),
      ("entity_alias", SpellsOptional (SpellsAs .string) aliasName),
      ("join_operator", SpellsRequired (fun k => SpellsName k.name) kind),
      ("columns", SpellsRequired Columns.Spells columns),
      ("link_criteria", SpellsOptional Filter.Spells criteria),
      ("link_entities", SpellsArray (Link.SpellsAll links))]

/-- The spellings of the links of a list. -/
def Link.SpellsAll : List Link → List Json → Prop
  | [], items => items = []
  | l :: links, items => ∃ v rest, items = v :: rest ∧ Link.Spells l v ∧ Link.SpellsAll links rest

end

theorem Link.decodeMember?_eq (members : List (String × Json)) :
    Link.decodeMember? members = required? (members.lookup "link_entities") Link.decodeList? := by
  induction members with
  | nil => rfl
  | cons e rest ih =>
    rw [decodeMember?, List.lookup_cons, BEq.comm, ih]
    split_ifs with hname <;> simp [hname, required?]

/-- An object and an array of a link are read alike. -/
theorem Link.decode?_eq (v : Json) : Link.decode? v =
    v.fields? [JoinKey.fromEntity.name, JoinKey.fromAttribute.name, JoinKey.toEntity.name, JoinKey.toAttribute.name,
      "entity_alias", "join_operator", "columns", "link_criteria", "link_entities"] >>= fun
      | [fromEntity, fromAttribute, toEntity, toAttribute, aliasName, kind, columns, criteria, links] => do
        let links ← required? links Link.decodeList?
        Link.ofFields? links fromEntity fromAttribute toEntity toAttribute aliasName kind columns criteria
      | _ => none := by
  unfold decode?
  split
  · rw [decodeMember?_eq]
    rfl
  · rfl
  · rename_i hobject harray
    cases v with
    | object members => exact absurd rfl (hobject members)
    | array items =>
      rcases items with
        _ | ⟨a, _ | ⟨b, _ | ⟨c, _ | ⟨d, _ | ⟨e, _ | ⟨f, _ | ⟨g, _ | ⟨h, _ | ⟨i, _ | _⟩⟩⟩⟩⟩⟩⟩⟩⟩
      all_goals first | rfl | exact absurd rfl (harray a b c d e f g h i)
    | _ => rfl

theorem Link.required?_decodeList?_iff {links : List Link} {field : Option Json} :
    required? field Link.decodeList? = some links ↔
      SpellsArray (fun items => Link.decodeItems? items = some links) field := by
  rcases field with _ | v
  · simp [required?, SpellsArray]
  · cases v <;> simp [required?, decodeList?, SpellsArray]

mutual

theorem Link.decode?_iff : ∀ (l : Link) (v : Json), Link.decode? v = some l ↔ l.Spells v
  | ⟨fromEntity, fromAttribute, toEntity, toAttribute, aliasName, kind, columns, criteria, links⟩, v => by
    rw [Link.decode?_eq, Link.Spells]
    refine bind_fields?_iff rfl fun given => ?_
    rcases given with
      _ | ⟨a, _ | ⟨b, _ | ⟨c, _ | ⟨d, _ | ⟨e, _ | ⟨f, _ | ⟨g, _ | ⟨h, _ | ⟨i, _ | _⟩⟩⟩⟩⟩⟩⟩⟩⟩ <;>
      simp [Link.ofFields?, Option.bind_eq_some_iff, optional?_iff asString?_iff rfl,
        required?_iff JoinKind.decode?_iff, required?_iff Columns.decode?_iff,
        optional?_iff Filter.decode?_iff rfl, Link.required?_decodeList?_iff, Link.decodeItems?_iff links]
    -- the nested links are read first and stand last
    rw [and_comm]
    simp only [and_assoc]

theorem Link.decodeItems?_iff : ∀ (links : List Link) (items : List Json),
    Link.decodeItems? items = some links ↔ Link.SpellsAll links items
  | [], items => by cases items <;> simp [Link.decodeItems?, Link.SpellsAll, Option.bind_eq_some_iff]
  | l :: links, items => by
    cases items <;>
      simp [Link.decodeItems?, Link.SpellsAll, Link.decode?_iff l, Link.decodeItems?_iff links,
        Option.bind_eq_some_iff]

end

/-! ## Queries -/

/-- The spellings of a sort key. -/
def SortKey.Spells (k : SortKey) : Json → Prop :=
  SpellsStructure [
    ("attribute_name", SpellsRequired (SpellsAs .string) k.attributeName),
    ("order_type", SpellsRequired (fun d => SpellsName d.name) k.direction)]

theorem SortKey.decode?_iff (k : SortKey) (v : Json) : SortKey.decode? v = some k ↔ k.Spells v := by
  obtain ⟨attributeName, direction⟩ := k
  refine bind_fields?_iff rfl fun given => ?_
  rcases given with _ | ⟨a, _ | ⟨b, _ | _⟩⟩ <;>
    simp [Option.bind_eq_some_iff, required?_iff asString?_iff, required?_iff Direction.decode?_iff]

/-- The spellings of a paging. -/
def Paging.Spells (p : Paging) : Json → Prop :=
  SpellsStructure [
    ("page_number", SpellsRequired (SpellsAs .ofUInt32) p.pageNumber),
    ("count", SpellsOptional (SpellsAs .ofUInt32) p.pageSize),
    ("paging_cookie", SpellsOptional (SpellsAs .string) p.cookie),
    ("return_total_record_count", SpellsRequired (SpellsAs .bool) p.wantsTotal)]

theorem Paging.decode?_iff (p : Paging) (v : Json) : Paging.decode? v = some p ↔ p.Spells v := by
  obtain ⟨pageNumber, pageSize, cookie, wantsTotal⟩ := p
  refine bind_fields?_iff rfl fun given => ?_
  rcases given with _ | ⟨a, _ | ⟨b, _ | ⟨c, _ | ⟨d, _ | _⟩⟩⟩⟩ <;>
    simp [Option.bind_eq_some_iff, required?_iff asUInt32?_iff, optional?_iff asUInt32?_iff rfl,
      optional?_iff asString?_iff rfl, required?_iff asBool?_iff, -Bool.exists_bool]

/-- The spellings of a query. -/
def Query.Spells (q : Query) : Json → Prop :=
  SpellsStructure [
    ("entity_name", SpellsRequired (SpellsAs .string) q.entity),
    ("column_set", SpellsRequired Columns.Spells q.columns),
    ("criteria", SpellsOptional Filter.Spells q.criteria),
    ("link_entities", SpellsArray (Link.SpellsAll q.links)),
    ("orders", SpellsRequired (SpellsList SortKey.Spells) q.sortKeys),
    ("page_info", SpellsRequired Paging.Spells q.paging),
    ("top_count", SpellsOptional (SpellsAs .ofUInt32) q.top),
    ("distinct", SpellsRequired (SpellsAs .bool) q.distinct),
    ("no_lock", SpellsRequired (SpellsAs .bool) q.noLock)]

theorem Query.decode?_iff (q : Query) (v : Json) : Query.decode? v = some q ↔ q.Spells v := by
  obtain ⟨entity, columns, criteria, links, sortKeys, paging, top, distinct, noLock⟩ := q
  refine bind_fields?_iff rfl fun given => ?_
  rcases given with
    _ | ⟨a, _ | ⟨b, _ | ⟨c, _ | ⟨d, _ | ⟨e, _ | ⟨f, _ | ⟨g, _ | ⟨h, _ | ⟨i, _ | _⟩⟩⟩⟩⟩⟩⟩⟩⟩ <;>
    simp [Option.bind_eq_some_iff, required?_iff asString?_iff, required?_iff Columns.decode?_iff,
      optional?_iff Filter.decode?_iff rfl, Link.required?_decodeList?_iff, Link.decodeItems?_iff,
      required?_iff (asList?_iff SortKey.decode?_iff), required?_iff Paging.decode?_iff,
      optional?_iff asUInt32?_iff rfl, required?_iff asBool?_iff, -Bool.exists_bool]

end EntityQuery
