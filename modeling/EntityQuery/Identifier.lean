import EntityQuery.Text.Hex

/-!
# Identifiers

An identifier is sixteen bytes. It is written as lowercase hexadecimal digits in five groups with hyphens
between them. `Identifier.parse?` also reads the digits without hyphens, and the grouped form in braces or
after `urn:uuid:`; digits and the `urn:uuid:` are read in both cases.
-/

namespace EntityQuery

/-- A universally unique identifier. -/
structure Identifier where
  bytes : List UInt8
  length_bytes : bytes.length = 16
deriving DecidableEq

namespace Identifier

/-- The identifier of exactly sixteen bytes. -/
def ofBytes? (bytes : List UInt8) : Option Identifier :=
  if h : bytes.length = 16 then some ⟨bytes, h⟩ else none

/-- The written form. -/
def text (i : Identifier) : String :=
  let group (start count : Nat) := Text.hexOfBytes ((i.bytes.drop start).take count)
  String.ofList (group 0 4 ++ '-' :: group 4 2 ++ '-' :: group 6 2 ++ '-' :: group 8 2 ++ '-' :: group 10 6)

/-- The digits of the form in five groups, without the hyphens between them. -/
def ungroup? (cs : List Char) : Option (List Char) :=
  let hyphen (place : Nat) := cs[place]? = some '-'
  if cs.length = 36 ∧ hyphen 8 ∧ hyphen 13 ∧ hyphen 18 ∧ hyphen 23 then
    some (cs.take 8 ++ (cs.drop 9).take 4 ++ (cs.drop 14).take 4 ++ (cs.drop 19).take 4 ++ cs.drop 24)
  else none

/-- The digits of any accepted form. -/
def digits? (cs : List Char) : Option (List Char) :=
  match cs.length with
  | 32 => some cs
  | 36 => ungroup? cs
  | 38 => if cs.head? = some '\x7b' ∧ cs.getLast? = some '\x7d' then ungroup? (cs.drop 1).dropLast else none
  | 45 => if (cs.take 9).map Char.toLower = "urn:uuid:".toList then ungroup? (cs.drop 9) else none
  | _ => none

/-- The identifier that a text denotes. -/
def parse? (text : String) : Option Identifier := do
  let digits ← digits? text.toList
  let bytes ← Text.bytesOfHex? digits
  ofBytes? bytes

end Identifier

end EntityQuery
