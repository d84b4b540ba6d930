import EntityQuery.Json.Printer
import EntityQuery.Text.Quoted

/-!
# Reading values as typed values

`ValueType.read` takes a JSON value for a value of a type, or says by a `Fault` why it is none. An integer
type takes integers in its range only; the type of doubles takes any number and gives a double.
-/

namespace EntityQuery

/-- A type of attribute values. -/
inductive ValueType where
  | text
  /-- A signed integer of 64 bits. -/
  | int64
  /-- An unsigned integer of 32 bits. -/
  | uint32
  /-- An unsigned integer of 8 bits. -/
  | uint8
  | double
  | bool
  | texts
  | any
deriving DecidableEq

/-- Why a value, or an object, cannot be read. -/
inductive Fault where
  /-- The value is of another type. -/
  | invalidType (found : Json) (wanted : ValueType)
  /-- The integer is out of the range of the type. -/
  | outOfRange (n : Int) (wanted : ValueType)
  /-- A field that must be there is not. -/
  | missingField (name : String)

/-! ## Wording -/

/-- What a message calls a type. -/
def ValueType.wording : ValueType → String
  | .text => "a string"
  | .int64 => "i64"
  | .uint32 => "u32"
  | .uint8 => "u8"
  | .double => "f64"
  | .bool => "a boolean"
  | .texts => "a sequence"
  | .any => "any value"

/-- What a message calls a value. -/
def Fault.describe : Json → String
  | .null => "null"
  | .bool true => "boolean `true`"
  | .bool false => "boolean `false`"
  | .number (.int n _) => "integer `" ++ String.ofList (Json.intText n) ++ "`"
  | .number (.float x) => "floating point `" ++ String.ofList (Json.floatText x) ++ "`"
  | .string s => "string " ++ Text.quoted s
  | .array _ => "sequence"
  | .object _ => "map"

/-- The wording of a fault. -/
def Fault.message : Fault → String
  | .invalidType found wanted => "invalid type: " ++ describe found ++ ", expected " ++ wanted.wording
  | .outOfRange n wanted =>
    "invalid value: integer `" ++ String.ofList (Json.intText n) ++ "`, expected " ++ wanted.wording
  | .missingField name => "missing field `" ++ name ++ "`"

/-! ## Reading -/

namespace ValueType

/-- Whether an integer is in the range of a type. -/
def admits (type : ValueType) (n : Int) : Bool :=
  match type with
  | .int64 => -2 ^ 63 ≤ n && n < 2 ^ 63
  | .uint32 => 0 ≤ n && n < 2 ^ 32
  | .uint8 => 0 ≤ n && n < 2 ^ 8
  | _ => false

/-- Reads a text. -/
def readText : Json → Except Fault Json
  | .string s => .ok (.string s)
  | v => .error (.invalidType v .text)

/-- Reads a value as one of a type. -/
def read : ValueType → Json → Except Fault Json
  | .any, v => .ok v
  | .text, v => readText v
  | .bool, .bool b => .ok (.bool b)
  | .double, .number n => .ok (.number (.float n.toBinary64))
  | .texts, .array items => (items.mapM readText).map .array
  | .int64, .number (.int n h) => integer .int64 n h
  | .uint32, .number (.int n h) => integer .uint32 n h
  | .uint8, .number (.int n h) => integer .uint8 n h
  | type, v => .error (.invalidType v type)
where
  /-- Takes an integer that is in the range of a type. -/
  integer (type : ValueType) (n : Int) (h : -2 ^ 63 ≤ n ∧ n < 2 ^ 64) : Except Fault Json :=
    if type.admits n then .ok (.number (.int n h)) else .error (.outOfRange n type)

end ValueType

end EntityQuery
