import EntityQuery.Identifier
import EntityQuery.Json.Basic
import EntityQuery.SortedMap

/-!
# Records

A record belongs to an entity and carries an optional identifier and attributes with JSON values, sorted by
name. An attribute that is absent reads as null.
-/

namespace EntityQuery

/-- A record of an entity. -/
structure Record where
  /-- The entity that the record belongs to. -/
  logicalName : String
  id : Option Identifier := none
  attributes : SortedMap Json := .empty

namespace Record

instance : Inhabited Record := ⟨{ logicalName := "" }⟩

/-- The value of an attribute, if the record has it. -/
def attribute? (r : Record) (name : String) : Option Json := r.attributes.get? name

/-- The value of an attribute, null if the record does not have it. -/
def value (r : Record) (name : String) : Json := (r.attribute? name).getD .null

/-- Gives an attribute a value. -/
def set (r : Record) (name : String) (value : Json) : Record :=
  { r with attributes := r.attributes.insert name value }

/-- Equality of records, with IEEE comparison of doubles. -/
def same (r s : Record) : Bool :=
  r.logicalName == s.logicalName && r.id == s.id &&
    Json.sameMembers r.attributes.entries s.attributes.entries

instance : BEq Record := ⟨same⟩

/-! ## Lists of records without repetition -/

/-- The records of a list that are not the same as one before them or one in `seen`. -/
def distinctAfter (seen : List Record) : List Record → List Record
  | [] => []
  | r :: rest =>
    if seen.any fun s => s.same r then distinctAfter seen rest
    else r :: distinctAfter (seen ++ [r]) rest

/-- The first of each group of same records, in order. -/
def distinct (records : List Record) : List Record := distinctAfter [] records

end Record

end EntityQuery
