import EntityQuery.Json.Basic

/-!
# Taking JSON values apart

Readers for the parts of written structures. A structure is an object, whose unknown members do not count,
or the array of exactly its fields in order; `Json.fields?` gives the fields of both, absent members as
`none`. A name of a fixed list is a string or an object with the name as its only member, holding null.
-/

namespace EntityQuery.Json

/-- Reads a text. -/
def asString? : Json → Option String
  | .string s => some s
  | _ => none

/-- Reads a truth value. -/
def asBool? : Json → Option Bool
  | .bool b => some b
  | _ => none

/-- Reads an integer. -/
def asInt? : Json → Option Int
  | .number (.int n _) => some n
  | _ => none

/-- Reads an unsigned integer of 32 bits. -/
def asUInt32? (v : Json) : Option UInt32 := do
  let n ← v.asInt?
  if 0 ≤ n ∧ n < 2 ^ 32 then some (UInt32.ofNat n.toNat) else none

/-- Reads an unsigned integer of 64 bits. -/
def asUInt64? (v : Json) : Option UInt64 := do
  let n ← v.asInt?
  if 0 ≤ n ∧ n < 2 ^ 64 then some (UInt64.ofNat n.toNat) else none

/-- Reads the items of a list with a reader. -/
def readAll {α : Type} (item : Json → Option α) : List Json → Option (List α)
  | [] => some []
  | v :: rest => do
    let x ← item v
    let xs ← readAll item rest
    return x :: xs

/-- Reads an array whose items a reader takes. -/
def asList? {α : Type} (item : Json → Option α) : Json → Option (List α)
  | .array items => readAll item items
  | _ => none

/-- Reads null, or a value that a reader takes. -/
def asNullable? {α : Type} (item : Json → Option α) (v : Json) : Option (Option α) :=
  if v.isNull then some none else (item v).map some

/-- Reads one of a list of names. -/
def asName? {α : Type} (ofName? : String → Option α) : Json → Option α
  | .string name => ofName? name
  | .object [(name, .null)] => ofName? name
  | _ => none

/-! ## Structures -/

/-- The fields of a structure with these field names. -/
def fields? (names : List String) : Json → Option (List (Option Json))
  | .object members => some (names.map fun name => members.lookup name)
  | .array items => if items.length = names.length then some (items.map some) else none
  | _ => none

/-- Reads a field that has to be there. -/
def required? {α : Type} (field : Option Json) (item : Json → Option α) : Option α := field.bind item

/-- Reads a field that may be absent or null. -/
def optional? {α : Type} (field : Option Json) (item : Json → Option α) : Option (Option α) :=
  match field with
  | none => some none
  | some v => v.asNullable? item

end EntityQuery.Json
