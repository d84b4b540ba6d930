import EntityQuery.Numeric.Decimal

/-!
# The fewest digits that read back

`Binary64.shortest` is the decimal with the fewest digits among those that round to a given double,
and the nearest to it among those. On the grid of decimals with a given last place only the two
neighbours of the double have to be tried: if any point of the grid rounds to the double, one of
them does.
-/

namespace EntityQuery

namespace Binary64

/-- The exponent of the leading decimal digit of `num / den`, both positive. -/
def leadingExponent (num den : Nat) : Int :=
  if den ≤ num then ((Decimal.digitsOfNat (num / den)).length : Int) - 1
  else -((Decimal.digitsOfNat ((den + num - 1) / num - 1)).length : Int)

/-- Whether `coefficient * 10 ^ exponent` rounds to the absolute value of `x`. The interval of reals
that do so reaches half a place up and half a place down, half as far down at a power of two; its
ends belong to it when the significand is even. -/
def readsBack (x : Binary64) (coefficient : Nat) (exponent : Int) : Bool :=
  let m := x.significand
  let scale := 2 ^ x.shift * 10 ^ (-exponent).toNat
  let low := (if m = 2 ^ 52 ∧ 0 < x.shift then 4 * m - 1 else 4 * m - 2) * scale
  let high := (4 * m + 2) * scale
  let point := 4 * (coefficient * 10 ^ exponent.toNat * unitsPerOne)
  if m % 2 = 0 then low ≤ point && point ≤ high else low < point && point < high

/-- Whether the lower of two neighbouring coefficients stands for `num / den`: it is the nearer one, or
both are as near and it is even. -/
def lowerStands (num den below : Nat) : Bool :=
  let middle := (2 * below + 1) * den
  2 * num < middle || (2 * num == middle && below % 2 == 0)

/-- The neighbour of `x` on the grid of multiples of `10 ^ exponent` that rounds to `x`; if both do, the
nearer one, and the even one of two that are as near. -/
def onGrid? (x : Binary64) (exponent : Int) : Option Decimal :=
  let num := x.units * 10 ^ (-exponent).toNat
  let den := unitsPerOne * 10 ^ exponent.toNat
  let below := num / den
  match x.readsBack below exponent, x.readsBack (below + 1) exponent with
  | true, true => some ⟨if lowerStands num den below then below else below + 1, exponent⟩
  | true, false => some ⟨below, exponent⟩
  | false, true => some ⟨below + 1, exponent⟩
  | false, false => none

/-- The decimal of the absolute value of `x` with the fewest digits; seventeen always suffice. -/
def shortest (x : Binary64) : Decimal :=
  if x.magnitude = 0 then ⟨0, 0⟩
  else
    let top := leadingExponent x.units unitsPerOne
    ((List.range 17).findSome? fun (n : Nat) => x.onGrid? (top - n)).getD ⟨x.units, 0⟩

end Binary64

end EntityQuery
