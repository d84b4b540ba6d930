import EntityQuery.Numeric.Binary64

/-!
# JSON values

`Json` is the value type of attributes and condition values. A number is an integer that fits 64 bits,
signed or unsigned, or a finite double, and the two kinds stay apart: `1` and `1.0` are different values.
Members of an object keep the order they were given in; `Json.Parser` lists them sorted by name.

`Json.same` is equality with IEEE comparison of doubles at the leaves.
-/

namespace EntityQuery

/-- A JSON number. -/
inductive Number where
  | int (value : Int) (bounds : -2 ^ 63 ≤ value ∧ value < 2 ^ 64)
  | float (value : Binary64)
deriving DecidableEq

namespace Number

/-- The integer number, if it fits. -/
def ofInt? (n : Int) : Option Number :=
  if h : -2 ^ 63 ≤ n ∧ n < 2 ^ 64 then some (.int n h) else none

/-- The integer number of a word of 32 bits. -/
def ofUInt32 (n : UInt32) : Number :=
  .int n.toNat (by have := n.toNat_lt; omega)

/-- The integer number of a word of 64 bits. -/
def ofUInt64 (n : UInt64) : Number :=
  .int n.toNat (by have := n.toNat_lt; omega)

/-- The nearest double; every integer in bounds has one. -/
def toBinary64 : Number → Binary64
  | .int n _ => (Binary64.ofInt? n).getD .zero
  | .float x => x

/-- Equality of numbers of one kind; doubles compare as IEEE asks, and the kinds are never equal. -/
def same : Number → Number → Bool
  | .int m _, .int n _ => m == n
  | .float x, .float y => x.ieeeEq y
  | _, _ => false

end Number

/-- A JSON value. -/
inductive Json where
  | null
  | bool (value : Bool)
  | number (value : Number)
  | string (value : String)
  | array (items : List Json)
  | object (members : List (String × Json))

namespace Json

instance : Inhabited Json := ⟨.null⟩

/-- Whether a value is null. -/
def isNull : Json → Bool
  | .null => true
  | _ => false

/-- The number of a word of 32 bits. -/
def ofUInt32 (n : UInt32) : Json := .number (.ofUInt32 n)

/-- The list of texts. -/
def ofStrings (texts : List String) : Json := .array (texts.map .string)

/-! ## Equality -/

mutual

/-- Equality of values, with IEEE comparison of doubles. -/
def same : Json → Json → Bool
  | .null, .null => true
  | .bool a, .bool b => a == b
  | .number m, .number n => m.same n
  | .string s, .string t => s == t
  | .array xs, .array ys => sameItems xs ys
  | .object xs, .object ys => sameMembers xs ys
  | _, _ => false

/-- Item by item equality of arrays. -/
def sameItems : List Json → List Json → Bool
  | [], [] => true
  | x :: xs, y :: ys => same x y && sameItems xs ys
  | _, _ => false

/-- Member by member equality of objects. -/
def sameMembers : List (String × Json) → List (String × Json) → Bool
  | [], [] => true
  | (m, x) :: xs, (n, y) :: ys => m == n && same x y && sameMembers xs ys
  | _, _ => false

end

instance : BEq Json := ⟨same⟩

end Json

end EntityQuery
