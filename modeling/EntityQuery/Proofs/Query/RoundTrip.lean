import EntityQuery.Proofs.NameSet
import EntityQuery.Query.Decoding
import EntityQuery.Query.Encoding
import Mathlib.Data.List.Basic
import Mathlib.Tactic.SplitIfs

/-!
# Written queries read back

Each reader gives back what its writer wrote, so that the written form determines the value. A value that may
be missing is told from null because no written value is null.

* `Filter.decode?_encode`, `Link.decode?_encode`: through all nested filters and links;
* `Query.decode?_encode`: for whole queries;
* `Query.encode_injective`: queries with one written form are one query.
-/

namespace EntityQuery

/-! ## Parts of written structures -/

namespace Json

theorem asString?_string (s : String) : asString? (.string s) = some s := rfl

theorem asBool?_bool (b : Bool) : asBool? (.bool b) = some b := rfl

theorem asUInt32?_ofUInt32 (n : UInt32) : (ofUInt32 n).asUInt32? = some n := by
  have hlt : (n.toNat : Int) < 2 ^ 32 := by
    have := n.toNat_lt
    omega
  have hread : (ofUInt32 n).asInt? = some (n.toNat : Int) := rfl
  rw [asUInt32?, hread, Option.bind_eq_bind, Option.bind_some, if_pos ⟨Int.natCast_nonneg _, hlt⟩,
    Int.toNat_natCast, UInt32.ofNat_toNat]

/-- A missing value is read as missing, when no written value is null. -/
theorem asNullable?_ofOption {α : Type} {encode : α → Json} {item : Json → Option α}
    (hnull : ∀ x, (encode x).isNull = false) (hitem : ∀ x, item (encode x) = some x) (o : Option α) :
    asNullable? item (ofOption encode o) = some o := by
  cases o with
  | none => rfl
  | some x => simp [asNullable?, ofOption, hnull x, hitem x]

/-- A field that has to be there is read by its reader. -/
theorem required?_bind {α β : Type} {item : Json → Option α} {v : Json} {x : α} (h : item v = some x)
    (f : α → Option β) : (required? (some v) item >>= f) = f x := by
  rw [required?, Option.bind_some, h]
  rfl

/-- A field that may be missing is read as missing or by its reader. -/
theorem optional?_bind {α β : Type} {item : Json → Option α} {v : Json} {x : Option α}
    (h : asNullable? item v = some x) (f : Option α → Option β) : (optional? (some v) item >>= f) = f x := by
  rw [optional?, h]
  rfl

theorem asNullable?_ofText? (text : Option String) : asNullable? asString? (ofText? text) = some text :=
  asNullable?_ofOption (fun _ => rfl) asString?_string text

theorem asNullable?_ofUInt32? (n : Option UInt32) : asNullable? asUInt32? (ofUInt32? n) = some n :=
  asNullable?_ofOption (fun _ => rfl) asUInt32?_ofUInt32 n

theorem readAll_map {α : Type} {encode : α → Json} {item : Json → Option α}
    (h : ∀ x, item (encode x) = some x) (xs : List α) : readAll item (xs.map encode) = some xs := by
  induction xs with
  | nil => rfl
  | cons x xs ih => simp [readAll, h x, ih]

/-- Any values are read back as they are. -/
theorem asList?_some (vs : List Json) : (Json.array vs).asList? some = some vs := by
  simpa [asList?] using readAll_map (fun _ : Json => rfl) vs

theorem asList?_ofStrings (texts : List String) : (ofStrings texts).asList? asString? = some texts :=
  readAll_map asString?_string texts

end Json

open Json

theorem Operator.decode?_encode (op : Operator) : Operator.decode? op.encode = some op := by
  cases op <;> rfl

theorem Junction.decode?_encode (j : Junction) : Junction.decode? j.encode = some j := by
  cases j <;> rfl

theorem JoinKind.decode?_encode (k : JoinKind) : JoinKind.decode? k.encode = some k := by
  cases k <;> rfl

theorem Direction.decode?_encode (d : Direction) : Direction.decode? d.encode = some d := by
  cases d <;> rfl

theorem Columns.decode?_encode (c : Columns) : Columns.decode? c.encode = some c := by
  cases c with
  | all => rfl
  | only set => simp [encode, decode?, asList?_ofStrings]

/-! ## Conditions and filters -/

theorem Condition.decode?_encode (c : Condition) : Condition.decode? c.encode = some c := by
  have hfields : c.encode.fields? ["entity_name", "attribute_name", "operator", "values"] =
    some [some (ofText? c.scope), some (.string c.attributeName), some c.operator.encode,
      some (.array c.values)] := rfl
  rw [decode?, hfields, Option.bind_eq_bind, Option.bind_some]
  dsimp only
  rw [optional?_bind (asNullable?_ofText? c.scope), required?_bind (asString?_string c.attributeName),
    required?_bind c.operator.decode?_encode, required?_bind (asList?_some c.values)]
  rfl

mutual

theorem Filter.decode?_encode : ∀ f : Filter, Filter.decode? f.encode = some f
  | ⟨junction, conditions, filters⟩ => by
    have hconditions := readAll_map Condition.decode?_encode conditions
    have hfilters := Filter.decodeItems?_encodeAll filters
    simp [Filter.encode, Filter.decode?, Filter.decodeMember?, Filter.decodeList?, required?, asList?,
      List.lookup_cons, junction.decode?_encode, hconditions, hfilters]

theorem Filter.decodeItems?_encodeAll : ∀ fs : List Filter, Filter.decodeItems? (Filter.encodeAll fs) = some fs
  | [] => rfl
  | f :: fs => by
    simp [Filter.encodeAll, Filter.decodeItems?, Filter.decode?_encode f, Filter.decodeItems?_encodeAll fs]

end

theorem Filter.isNull_encode (f : Filter) : f.encode.isNull = false := by
  cases f
  rfl

/-! ## Links -/

mutual

theorem Link.decode?_encode : ∀ l : Link, Link.decode? l.encode = some l
  | ⟨fromEntity, fromAttribute, toEntity, toAttribute, aliasName, kind, columns, criteria, links⟩ => by
    have hcriteria := asNullable?_ofOption Filter.isNull_encode Filter.decode?_encode criteria
    have hlinks := Link.decodeItems?_encodeAll links
    simp [Link.encode, Link.decode?, Link.decodeMember?, Link.decodeList?, Link.ofFields?, required?, optional?,
      List.lookup_cons, JoinKey.name, asNullable?_ofText?, kind.decode?_encode, columns.decode?_encode, hcriteria,
      hlinks]

theorem Link.decodeItems?_encodeAll : ∀ ls : List Link, Link.decodeItems? (Link.encodeAll ls) = some ls
  | [] => rfl
  | l :: ls => by
    simp [Link.encodeAll, Link.decodeItems?, Link.decode?_encode l, Link.decodeItems?_encodeAll ls]

end

/-! ## Queries -/

theorem SortKey.decode?_encode (k : SortKey) : SortKey.decode? k.encode = some k := by
  have hfields : k.encode.fields? ["attribute_name", "order_type"] =
    some [some (.string k.attributeName), some k.direction.encode] := rfl
  rw [decode?, hfields, Option.bind_eq_bind, Option.bind_some]
  dsimp only
  rw [required?_bind (asString?_string k.attributeName), required?_bind k.direction.decode?_encode]
  rfl

theorem Paging.decode?_encode (p : Paging) : Paging.decode? p.encode = some p := by
  have hfields : p.encode.fields? ["page_number", "count", "paging_cookie", "return_total_record_count"] =
    some [some (ofUInt32 p.pageNumber), some (ofUInt32? p.pageSize), some (ofText? p.cookie),
      some (.bool p.wantsTotal)] := rfl
  rw [decode?, hfields, Option.bind_eq_bind, Option.bind_some]
  dsimp only
  rw [required?_bind (asUInt32?_ofUInt32 p.pageNumber), optional?_bind (asNullable?_ofUInt32? p.pageSize),
    optional?_bind (asNullable?_ofText? p.cookie), required?_bind (asBool?_bool p.wantsTotal)]
  rfl

/-- A written query reads back. -/
theorem Query.decode?_encode (q : Query) : Query.decode? q.encode = some q := by
  have hfields : q.encode.fields? ["entity_name", "column_set", "criteria", "link_entities", "orders", "page_info",
      "top_count", "distinct", "no_lock"] =
    some [some (.string q.entity), some q.columns.encode, some (ofOption Filter.encode q.criteria),
      some (.array (Link.encodeAll q.links)), some (.array (q.sortKeys.map SortKey.encode)), some q.paging.encode,
      some (ofUInt32? q.top), some (.bool q.distinct), some (.bool q.noLock)] := rfl
  have hcriteria := asNullable?_ofOption Filter.isNull_encode Filter.decode?_encode q.criteria
  have hlinks : Link.decodeList? (.array (Link.encodeAll q.links)) = some q.links :=
    Link.decodeItems?_encodeAll q.links
  have hsortKeys : (Json.array (q.sortKeys.map SortKey.encode)).asList? SortKey.decode? = some q.sortKeys :=
    readAll_map SortKey.decode?_encode q.sortKeys
  rw [decode?, hfields, Option.bind_eq_bind, Option.bind_some]
  dsimp only
  rw [required?_bind (asString?_string q.entity), required?_bind q.columns.decode?_encode, optional?_bind hcriteria,
    required?_bind hlinks, required?_bind hsortKeys, required?_bind q.paging.decode?_encode,
    optional?_bind (asNullable?_ofUInt32? q.top), required?_bind (asBool?_bool q.distinct),
    required?_bind (asBool?_bool q.noLock)]
  rfl

/-- The written form determines the query. -/
theorem Query.encode_injective : Function.Injective Query.encode := by
  intro q r h
  have hread := Query.decode?_encode q
  rw [h, Query.decode?_encode] at hread
  exact (Option.some.inj hread).symm

end EntityQuery
