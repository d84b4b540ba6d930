/-!
# Finite binary64 numbers

A finite double is a sign and a magnitude, the magnitude being the number of finite doubles between
zero and its absolute value. All arithmetic on them is exact arithmetic on natural numbers.

* `Binary64.rank` orders the doubles as IEEE comparison does; both zeros have rank `0`;
* `Binary64.significand` and `Binary64.shift` give the absolute value `significand * 2 ^ shift / unitsPerOne`;
* `Binary64.ofRatio?` rounds a quotient to the nearest double, a tie to the even significand.
-/

-- powers are the built-in ones, also where other instances are at hand
attribute [instance (high), default_instance 20000] instPowNat

namespace EntityQuery

/-- A finite double. Magnitudes count upward from zero in steps of one unit in the last place. -/
structure Binary64 where
  negative : Bool
  magnitude : Nat
  magnitude_lt : magnitude < 2047 * 2 ^ 52 := by decide
deriving DecidableEq

namespace Binary64

/-- The positive zero. -/
def zero : Binary64 := { negative := false, magnitude := 0 }

instance : Inhabited Binary64 := ⟨zero⟩

/-- The zero of a sign. -/
def signedZero (negative : Bool) : Binary64 := { negative, magnitude := 0 }

/-- The position of a double on the number line. Two doubles compare as their ranks do, and the two
zeros are at one position. -/
def rank (x : Binary64) : Int := if x.negative then -x.magnitude else x.magnitude

@[simp] theorem rank_zero : zero.rank = 0 := rfl

@[simp] theorem rank_signedZero (negative : Bool) : (signedZero negative).rank = 0 := by
  cases negative <;> rfl

/-- IEEE equality: same position, so `0.0` equals `-0.0`. -/
def ieeeEq (x y : Binary64) : Bool := x.rank == y.rank

/-! ## Decoding -/

/-- The significand, below `2 ^ 53`. -/
def significand (x : Binary64) : Nat :=
  if x.magnitude < 2 ^ 52 then x.magnitude else x.magnitude % 2 ^ 52 + 2 ^ 52

/-- The power of two of the last place, counted from the smallest one, `2 ^ -1074`. -/
def shift (x : Binary64) : Nat := x.magnitude / 2 ^ 52 - 1

/-- The number of units in one, the unit being the smallest positive double, `2 ^ -1074`. -/
def unitsPerOne : Nat := 2 ^ 1074

/-- The absolute value in units. -/
def units (x : Binary64) : Nat := x.significand * 2 ^ x.shift

theorem significand_lt (x : Binary64) : x.significand < 2 ^ 53 := by
  unfold significand
  split <;> omega

/-- The magnitude is rebuilt from the significand and the shift. -/
theorem magnitude_eq (x : Binary64) : x.magnitude = x.shift * 2 ^ 52 + x.significand := by
  unfold significand shift
  split <;> omega

/-! ## Rounding -/

/-- A quotient rounded to a natural number, a half to the even neighbour. -/
def roundHalfEven (num den : Nat) : Nat :=
  let low := num / den
  let twice := 2 * (num % den)
  if den < twice || (twice == den && low % 2 == 1) then low + 1 else low

/-- The double with a sign and a magnitude, if it is finite. -/
def ofMagnitude? (negative : Bool) (magnitude : Nat) : Option Binary64 :=
  if h : magnitude < 2047 * 2 ^ 52 then some { negative, magnitude, magnitude_lt := h } else none

/-- The double nearest to `num / den`, `none` when it is past the largest finite one. -/
def ofRatio? (negative : Bool) (num den : Nat) : Option Binary64 :=
  let scaled := num * unitsPerOne
  let shift := Nat.log2 (scaled / den) - 52
  ofMagnitude? negative (shift * 2 ^ 52 + roundHalfEven scaled (den * 2 ^ shift))

/-- The double nearest to an integer, `none` when it is past the largest finite one. -/
def ofInt? (n : Int) : Option Binary64 := ofRatio? (n < 0) n.natAbs 1

end Binary64

end EntityQuery
