import EntityQuery.Proofs.Query.RoundTrip
import EntityQuery.Proofs.Record.Identifiers
import EntityQuery.Proofs.SortedMap

/-!
# Spellings of records

A record is spelled by its name, an identifier in any spelling or none, and an object of attributes in any order, in
which a repeated name has its last value. The written form is the one with the attributes sorted.

* `Record.decode?_iff`: a record is read from its spellings;
* `Record.decode?_encode`: a written record reads back.
-/

namespace EntityQuery

open Json

namespace Record

/-- The spellings of attributes. -/
def SpellsAttributes (attributes : SortedMap Json) (v : Json) : Prop :=
  ∃ members, v = .object members ∧ ∀ name, attributes.get? name = members.reverse.lookup name

theorem decodeAttributes?_iff (attributes : SortedMap Json) (v : Json) :
    decodeAttributes? v = some attributes ↔ SpellsAttributes attributes v := by
  cases v <;> simp [decodeAttributes?, SpellsAttributes, SortedMap.ofList_eq_iff]

/-- The spellings of a record. -/
def Spells (r : Record) : Json → Prop :=
  SpellsStructure [
    ("logical_name", SpellsRequired (SpellsAs .string) r.logicalName),
    ("id", SpellsOptional (fun i v => ∃ text, v = .string text ∧ i.Spells text.toList) r.id),
    ("attributes", SpellsRequired SpellsAttributes r.attributes)]

theorem decode?_iff (r : Record) (v : Json) : decode? v = some r ↔ r.Spells v := by
  obtain ⟨logicalName, id, attributes⟩ := r
  refine bind_fields?_iff rfl fun given => ?_
  rcases given with _ | ⟨a, _ | ⟨b, _ | ⟨c, _ | _⟩⟩⟩ <;>
    simp [Option.bind_eq_some_iff, required?_iff asString?_iff, optional?_iff Identifier.decode?_iff rfl,
      required?_iff decodeAttributes?_iff]

/-- A written record reads back. -/
theorem decode?_encode (r : Record) : decode? r.encode = some r := by
  have hfields : r.encode.fields? ["logical_name", "id", "attributes"] =
    some [some (.string r.logicalName), some (ofOption Identifier.encode r.id),
      some (.object r.attributes.entries)] := rfl
  have hid := asNullable?_ofOption (fun _ => rfl) Identifier.decode?_encode r.id
  have hattributes : decodeAttributes? (.object r.attributes.entries) = some r.attributes :=
    congrArg some r.attributes.ofList_entries
  rw [decode?, hfields, Option.bind_eq_bind, Option.bind_some]
  dsimp only
  rw [required?_bind (asString?_string r.logicalName), optional?_bind hid, required?_bind hattributes]
  rfl

end Record

end EntityQuery
