import EntityQuery.Numeric.Binary64

/-!
# Decimal numbers

`Decimal` is a natural coefficient times a power of ten: what a decimal literal denotes and what the
digits of a written double denote. `Decimal.toBinary64?` reads one as the nearest double.
-/

namespace EntityQuery

/-- The number `coefficient * 10 ^ exponent`. -/
structure Decimal where
  coefficient : Nat
  exponent : Int
deriving DecidableEq

namespace Decimal

/-- Whether a character is one of the ten decimal digits. -/
def isDigit (c : Char) : Bool := '0' ≤ c && c ≤ '9'

/-- The number written by a list of decimal digits, most significant first. -/
def natOfDigits (digits : List Char) : Nat :=
  digits.foldl (fun n c => 10 * n + (c.toNat - '0'.toNat)) 0

@[simp] theorem natOfDigits_nil : natOfDigits [] = 0 := rfl

/-- The digits of a natural number, most significant first. -/
def digitsOfNat (n : Nat) : List Char := Nat.toDigits 10 n

/-- The decimal of a literal: digits before the point, digits after it, and the written exponent. -/
def ofLiteral (whole fraction : List Char) (exponent : Int) : Decimal where
  coefficient := natOfDigits (whole ++ fraction)
  exponent := exponent - fraction.length

/-- The nearest double, `none` when it is past the largest finite one. Far outside the range of the
doubles the answer needs no arithmetic. -/
def toBinary64? (negative : Bool) (d : Decimal) : Option Binary64 :=
  let top := d.exponent + (digitsOfNat d.coefficient).length
  if d.coefficient = 0 ∨ top < -330 then some (.signedZero negative)
  else if 310 < top then none
  else if 0 ≤ d.exponent then Binary64.ofRatio? negative (d.coefficient * 10 ^ d.exponent.toNat) 1
  else Binary64.ofRatio? negative d.coefficient (10 ^ (-d.exponent).toNat)

end Decimal

end EntityQuery
