import EntityQuery.Error
import EntityQuery.Record.Basic

/-!
# Typed records

A schema lists the fields of a typed record. `Schema.read` takes the attributes of a record in order of
their names and reads those that are fields; the first that does not fit is the fault. Fields without an
attribute are looked at after that, in the order of the schema.
-/

namespace EntityQuery

namespace Record

/-- Reads an attribute as a value of a type; an absent attribute and null give nothing. -/
def read (r : Record) (type : ValueType) (name : String) : Except QueryError (Option Json) :=
  match r.attribute? name with
  | none => .ok none
  | some v =>
    if v.isNull then .ok none
    else match type.read v with
      | .ok v => .ok (some v)
      | .error fault => .error (.attributeMismatch name fault)

end Record

/-- What a field is when the record has no attribute for it. -/
inductive Presence where
  /-- The field must be there. -/
  | required
  /-- The field may be absent or null, and is null then. -/
  | optional
  /-- The field may be absent and has the value then. -/
  | defaulted (value : Json)

/-- A field of a typed record. -/
structure Field where
  name : String
  type : ValueType
  presence : Presence := .required

namespace Field

/-- Reads the value of an attribute for the field. -/
def read (f : Field) (v : Json) : Except Fault Json :=
  match f.presence, v with
  | .optional, .null => .ok .null
  | _, v => f.type.read v

/-- The value of the field when there is no attribute for it. -/
def absent (f : Field) : Except Fault Json :=
  match f.presence with
  | .required => .error (.missingField f.name)
  | .optional => .ok .null
  | .defaulted v => .ok v

end Field

/-- The fields of a typed record. -/
abbrev Schema := List Field

namespace Schema

/-- Reads the attributes that are fields, in order. -/
def readAttributes (s : Schema) : List (String × Json) → Except Fault (List (String × Json))
  | [] => .ok []
  | (name, v) :: rest =>
    match s.find? fun f => f.name == name with
    | none => readAttributes s rest
    | some f => do
      let v ← f.read v
      let rest ← readAttributes s rest
      return (name, v) :: rest

/-- Completes the values read with those of absent fields, in the order of the schema. -/
def complete (given : List (String × Json)) : Schema → Except Fault (List (String × Json))
  | [] => .ok []
  | f :: rest => do
    let v ← match given.lookup f.name with
      | some v => .ok v
      | none => f.absent
    let rest ← complete given rest
    return (f.name, v) :: rest

/-- The typed record, an object of its fields. -/
def read (s : Schema) (r : Record) : Except QueryError Json :=
  match s.readAttributes r.attributes.entries >>= fun given => complete given s with
  | .ok fields => .ok (.object fields)
  | .error fault => .error (.recordMismatch r.logicalName fault)

end Schema

end EntityQuery
