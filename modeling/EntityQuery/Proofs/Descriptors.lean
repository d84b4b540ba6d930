import EntityQuery.Proofs.Query.Spellings
import EntityQuery.Proofs.Record.Spellings
import EntityQuery.Proofs.Settings.Spellings

/-!
# Stored descriptors

Descriptors are stored as JSON: queries and their parts, records, and settings. Reading undoes writing for each of them,
so that a stored value in whatever spelling has a normal form, the written form of what it spells. The normal form is
read as the same descriptor and is its own normal form; for a query the fingerprint and the cache keys are those of
every spelling.

* `Normalises`: the laws of a writer and a reader;
* `Normalises.of`: they follow from reading back what is written and nothing else than spellings;
* `descriptors_normalise`: the laws hold of all descriptors.
-/

namespace EntityQuery

section Normalises

variable {α : Type} {encode : α → Json} {decode? : Json → Option α} {spells : α → Json → Prop}

/-- The written form of what a value spells. -/
def normalise? (encode : α → Json) (decode? : Json → Option α) (v : Json) : Option Json := (decode? v).map encode

/-- A writer and a reader of values with these spellings belong together. -/
structure Normalises (encode : α → Json) (decode? : Json → Option α) (spells : α → Json → Prop) : Prop where
  /-- What is written reads back. -/
  decode_encode : ∀ x, decode? (encode x) = some x
  /-- A value is read from its spellings and from nothing else. -/
  decode_iff : ∀ x v, decode? v = some x ↔ spells x v
  /-- The normal form of a spelling is the written form. -/
  normalise_of_spells : ∀ x v, spells x v → normalise? encode decode? v = some (encode x)
  /-- The normal form is read as the same value. -/
  decode_normalise : ∀ v w, normalise? encode decode? v = some w → decode? w = decode? v
  /-- The normal form is its own normal form. -/
  normalise_normalise : ∀ v w, normalise? encode decode? v = some w → normalise? encode decode? w = some w

theorem Normalises.of (hencode : ∀ x, decode? (encode x) = some x) (hspells : ∀ x v, decode? v = some x ↔ spells x v) :
    Normalises encode decode? spells := by
  have hnormal : ∀ v w, normalise? encode decode? v = some w → decode? w = decode? v := by
    intro v w h
    obtain ⟨x, hx, rfl⟩ := Option.map_eq_some_iff.mp h
    rw [hencode, hx]
  refine ⟨hencode, hspells, fun x v h => ?_, hnormal, fun v w h => ?_⟩
  · rw [normalise?, (hspells x v).mpr h, Option.map_some]
  · rw [normalise?, hnormal v w h]
    exact h

end Normalises

/-- **Reading undoes writing for every descriptor.** A value of each type reads back as it was written, a JSON value is
read exactly when it spells a value, and writing what was read gives a normal form with the same value. The normal form
of a query has the same fingerprint and the same cache keys. -/
theorem descriptors_normalise :
    Normalises Query.encode Query.decode? Query.Spells ∧
      Normalises Filter.encode Filter.decode? Filter.Spells ∧
      Normalises Condition.encode Condition.decode? Condition.Spells ∧
      Normalises Link.encode Link.decode? Link.Spells ∧
      Normalises Columns.encode Columns.decode? Columns.Spells ∧
      Normalises SortKey.encode SortKey.decode? SortKey.Spells ∧
      Normalises Paging.encode Paging.decode? Paging.Spells ∧
      Normalises Record.encode Record.decode? Record.Spells ∧
      Normalises Settings.encode Settings.decode? Settings.Spells ∧
      ∀ v w, normalise? Query.encode Query.decode? v = some w → ∃ q r, Query.decode? v = some q ∧
        Query.decode? w = some r ∧ r.fingerprint = q.fingerprint ∧ ∀ extent, r.cacheKey extent = q.cacheKey extent := by
  refine ⟨.of Query.decode?_encode Query.decode?_iff, .of Filter.decode?_encode Filter.decode?_iff,
    .of Condition.decode?_encode Condition.decode?_iff, .of Link.decode?_encode Link.decode?_iff,
    .of Columns.decode?_encode Columns.decode?_iff, .of SortKey.decode?_encode SortKey.decode?_iff,
    .of Paging.decode?_encode Paging.decode?_iff, .of Record.decode?_encode Record.decode?_iff,
    .of Settings.decode?_encode Settings.decode?_iff, ?_⟩
  intro v w h
  obtain ⟨q, hq, rfl⟩ := Option.map_eq_some_iff.mp h
  exact ⟨q, q, hq, q.decode?_encode, rfl, fun _ => rfl⟩

/-! ## A query in another spelling -/

/-- The accounts of a name with what they are linked to. -/
def storedQuery : Query where
  entity := "account"
  columns := .only (.ofList ["id", "name"])
  criteria := some { junction := .or, conditions := [{ attributeName := "name", values := [.string "Contoso"] }] }
  links := [{ toEntity := some "contact", kind := .leftOuter, columns := .all }]

/-- The query as an array, with repeated columns, arrays and keys for structures and names, and an unknown member. -/
def storedQueryRespelled : Json :=
  .array [
    .string "account",
    .object [("columns", .ofStrings ["name", "id", "name"])],
    .array [
      .object [("or", .null)],
      .array [.array [.null, .string "name", .object [("equal", .null)], .array [.string "Contoso"]]],
      .array []],
    .array [.object [
      ("join_operator", .string "left_outer"),
      ("colour", .bool true),
      ("columns", .object [("all", .null)]),
      ("link_to_entity_name", .string "contact"),
      ("link_entities", .array [])]],
    .array [],
    .object [("return_total_record_count", .bool false), ("page_number", .ofUInt32 1)],
    .null,
    .bool false,
    .bool true]

theorem descriptors_normalise_respelled :
    storedQuery.Spells storedQueryRespelled ∧
      normalise? Query.encode Query.decode? storedQueryRespelled = some storedQuery.encode ∧
      Query.decode? storedQuery.encode = Query.decode? storedQueryRespelled := by
  have hread : Query.decode? storedQueryRespelled = some storedQuery := rfl
  have hquery := descriptors_normalise.1
  have hspells := (hquery.decode_iff storedQuery storedQueryRespelled).mp hread
  have hnormal := hquery.normalise_of_spells storedQuery storedQueryRespelled hspells
  exact ⟨hspells, hnormal, hquery.decode_normalise storedQueryRespelled storedQuery.encode hnormal⟩

end EntityQuery
