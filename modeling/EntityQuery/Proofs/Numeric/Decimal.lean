import EntityQuery.Numeric.Decimal
import Mathlib.Algebra.Order.Field.Power
import Mathlib.Algebra.Order.Field.Rat
import Mathlib.Tactic.FieldSimp
import Mathlib.Tactic.Ring

/-!
# Digits and values of decimals

* `Decimal.natOfDigits_digitsOfNat`: the digits of a number denote it;
* `Decimal.lt_pow_length`, `Decimal.pow_length_sub_one_le`: a number lies between the powers of its length;
* `Decimal.value`: the number that a decimal denotes.
-/

namespace EntityQuery.Decimal

/-! ## Digits -/

theorem natOfDigits_digitsOfNat (n : Nat) : natOfDigits (digitsOfNat n) = n := Nat.ofDigitChars_ten_toDigits

theorem digitsOfNat_injective : Function.Injective digitsOfNat :=
  Function.LeftInverse.injective natOfDigits_digitsOfNat

theorem isDigit_of_mem_digitsOfNat {n : Nat} {c : Char} (h : c ∈ digitsOfNat n) : c.isDigit = true :=
  Nat.isDigit_of_mem_toDigits (by decide) (by decide) h

theorem natOfDigits_append (as bs : List Char) :
    natOfDigits (as ++ bs) = 10 ^ bs.length * natOfDigits as + natOfDigits bs := by
  have happend : natOfDigits (as ++ bs) = Nat.ofDigitChars 10 bs (natOfDigits as) := Nat.ofDigitChars_append 0
  rw [happend, Nat.ofDigitChars_eq_ofDigitChars_zero]
  rfl

@[simp] theorem natOfDigits_zeros (n : Nat) : natOfDigits (List.replicate n '0') = 0 := by
  have hzeros : natOfDigits (List.replicate n '0') = 10 ^ n * 0 := Nat.ofDigitChars_replicate_zero
  rw [hzeros, Nat.mul_zero]

theorem length_digitsOfNat_pos (n : Nat) : 0 < (digitsOfNat n).length := Nat.length_toDigits_pos

theorem lt_pow_length (n : Nat) : n < 10 ^ (digitsOfNat n).length :=
  (Nat.length_toDigits_le_iff (by decide) (length_digitsOfNat_pos n)).mp le_rfl

/-- The leading digit of a positive number is not zero. -/
theorem pow_length_sub_one_le {n : Nat} (hn : 0 < n) : 10 ^ ((digitsOfNat n).length - 1) ≤ n := by
  by_cases hlen : (digitsOfNat n).length = 1
  · rw [hlen]
    exact hn
  · have hpos := length_digitsOfNat_pos n
    have hle :=
      Nat.length_toDigits_le_iff (b := 10) (n := n) (k := (digitsOfNat n).length - 1) (by decide) (by omega)
    by_contra hlt
    have : (digitsOfNat n).length ≤ (digitsOfNat n).length - 1 := hle.mpr (by omega)
    omega

/-! ## Values -/

/-- The number that a decimal denotes. -/
def value (d : Decimal) : ℚ := d.coefficient * 10 ^ d.exponent

theorem zpow_eq_div (e : Int) : (10 : ℚ) ^ e = 10 ^ e.toNat / 10 ^ (-e).toNat := by
  obtain ⟨n, rfl | rfl⟩ := e.eq_nat_or_neg
  · simp
  · simp

/-- Zeros at the end of the coefficient are places of the exponent. -/
theorem value_mul_pow (c n : Nat) (e : Int) : value ⟨10 ^ n * c, e⟩ = value ⟨c, e + n⟩ := by
  simp only [value]
  rw [zpow_add₀ (by norm_num), zpow_natCast]
  push_cast
  ring

/-- A literal denotes its digits with the point where it stands. -/
theorem value_ofLiteral (whole fraction : List Char) (e : Int) :
    (ofLiteral whole fraction e).value = value ⟨natOfDigits (whole ++ fraction), e - fraction.length⟩ := rfl

end EntityQuery.Decimal
