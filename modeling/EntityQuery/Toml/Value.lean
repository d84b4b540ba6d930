import EntityQuery.Numeric.Decimal

/-!
# TOML values

The values that a TOML document holds. Numbers are kept as they are written, without a bound on their size,
and so is a word that is laid out as an integer and is none. `Value.isReadable` says whether every number in
a value can be had as a number: an integer of 128 bits, signed or unsigned, or a finite double.
-/

namespace EntityQuery.Toml

/-- A number with a point or an exponent, or one of the special numbers. -/
inductive Real where
  | decimal (negative : Bool) (value : Decimal)
  | infinity (negative : Bool)
  | nan
deriving DecidableEq

/-- A value. -/
inductive Value where
  | string (text : String)
  | integer (n : Int)
  /-- A word with the layout of an integer that has no digits, or others than those of its base. -/
  | illegible (text : String)
  | real (x : Real)
  | boolean (b : Bool)
  /-- A date, a time of day or both, as written. -/
  | moment (text : String)
  | array (items : List Value)
  | table (entries : List (String × Value))

namespace Value

instance : Inhabited Value := ⟨.table []⟩

/-- Whether an integer fits 128 bits, signed or unsigned. -/
def integerFits (n : Int) : Bool := -2 ^ 127 ≤ n && n < 2 ^ 128

/-- Whether a number is special or has a finite double nearest to it. -/
def realFits : Real → Bool
  | .decimal negative d => (d.toBinary64? negative).isSome
  | .infinity _ | .nan => true

mutual

/-- Whether every number in the value can be had. -/
def isReadable : Value → Bool
  | .integer n => integerFits n
  | .illegible _ => false
  | .real x => realFits x
  | .array items => areReadable items
  | .table entries => haveReadable entries
  | .string _ | .boolean _ | .moment _ => true

/-- Whether every item of a list is readable. -/
def areReadable : List Value → Bool
  | [] => true
  | v :: rest => isReadable v && areReadable rest

/-- Whether every entry of a list has a readable value. -/
def haveReadable : List (String × Value) → Bool
  | [] => true
  | (_, v) :: rest => isReadable v && haveReadable rest

end

end Value

end EntityQuery.Toml
