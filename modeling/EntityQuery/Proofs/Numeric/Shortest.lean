import EntityQuery.Numeric.Shortest
import EntityQuery.Proofs.Numeric.Decimal
import Mathlib.Order.Monotone.Basic
import Mathlib.Tactic.FieldSimp
import Mathlib.Tactic.Linarith
import Mathlib.Tactic.Positivity
import Mathlib.Tactic.Ring

/-!
# The shortest decimal of a double determines its magnitude

* `Binary64.readsBack_iff`: what reads back are the decimals between the midpoints to the two neighbours;
* `Binary64.magnitude_eq_of_readsBack`: a number reads back as one magnitude only;
* `Binary64.readsBack_shortest`: seventeen digits suffice, so the shortest decimal always reads back.
-/

namespace EntityQuery

namespace Binary64

/-! ## Units as a function of the magnitude -/

/-- The absolute value of the doubles of a magnitude, in units of `2 ^ -1074`. -/
def unitsAt (k : Nat) : Nat := (if k < 2 ^ 52 then k else k % 2 ^ 52 + 2 ^ 52) * 2 ^ (k / 2 ^ 52 - 1)

theorem unitsPerOne_pos : 0 < unitsPerOne := by
  unfold unitsPerOne
  positivity

theorem units_eq_unitsAt (x : Binary64) : x.units = unitsAt x.magnitude := rfl

/-- The next magnitude is one unit in the last place further. -/
theorem unitsAt_succ (k : Nat) : unitsAt (k + 1) = unitsAt k + 2 ^ (k / 2 ^ 52 - 1) := by
  unfold unitsAt
  by_cases hroom : (k + 1) % 2 ^ 52 = 0
  · -- the significand overflows and the exponent goes up
    by_cases hsub : k < 2 ^ 52
    · obtain rfl : k = 2 ^ 52 - 1 := by omega
      norm_num
    · have hdiv : (k + 1) / 2 ^ 52 - 1 = (k / 2 ^ 52 - 1) + 1 := by omega
      have hmod : k % 2 ^ 52 = 2 ^ 52 - 1 := by omega
      rw [if_neg (by omega), if_neg hsub, hdiv, hmod, hroom, pow_succ]
      ring
  · have hdiv : (k + 1) / 2 ^ 52 = k / 2 ^ 52 := by omega
    rw [hdiv]
    by_cases hsub : k < 2 ^ 52
    · rw [if_pos (by omega), if_pos hsub]
      ring
    · have hmod : (k + 1) % 2 ^ 52 = k % 2 ^ 52 + 1 := by omega
      rw [if_neg (by omega), if_neg hsub, hmod]
      ring

theorem strictMono_unitsAt : StrictMono unitsAt :=
  strictMono_nat_of_lt_succ fun k => by
    rw [unitsAt_succ]
    exact Nat.lt_add_of_pos_right (by positivity)

/-- Twice the midpoint between a magnitude and the next one. -/
def upperBoundary (k : Nat) : Nat := unitsAt k + unitsAt (k + 1)

/-- Twice the midpoint between a magnitude and the one before; zero for the magnitude zero. -/
def lowerBoundary (k : Nat) : Nat := unitsAt (k - 1) + unitsAt k

theorem lowerBoundary_succ (k : Nat) : lowerBoundary (k + 1) = upperBoundary k := rfl

theorem strictMono_upperBoundary : StrictMono upperBoundary := fun _ _ h =>
  Nat.add_lt_add (strictMono_unitsAt h) (strictMono_unitsAt (Nat.succ_lt_succ h))

/-- The boundaries between two magnitudes are in order; they meet only for neighbours. -/
theorem upperBoundary_le_lowerBoundary {j k : Nat} (h : j < k) :
    upperBoundary j ≤ lowerBoundary k ∧ (upperBoundary j = lowerBoundary k → k = j + 1) := by
  obtain ⟨k, rfl⟩ := Nat.exists_eq_add_one_of_ne_zero (Nat.ne_zero_of_lt h)
  rw [lowerBoundary_succ]
  refine ⟨strictMono_upperBoundary.monotone (by omega), fun heq => ?_⟩
  rw [strictMono_upperBoundary.injective heq]

/-! ## The interval that reads back -/

theorem four_units_add (x : Binary64) :
    (4 * x.significand + 2) * 2 ^ x.shift = 2 * upperBoundary x.magnitude := by
  have hnext := unitsAt_succ x.magnitude
  have hunits : unitsAt x.magnitude = x.significand * 2 ^ x.shift := rfl
  have hshift : x.magnitude / 2 ^ 52 - 1 = x.shift := rfl
  rw [hshift] at hnext
  rw [upperBoundary, hnext, hunits]
  ring

/-- The lower end: half a place down, and half as far at a power of two above the smallest ones. -/
theorem four_units_sub (x : Binary64) :
    (if x.significand = 2 ^ 52 ∧ 0 < x.shift then 4 * x.significand - 1 else 4 * x.significand - 2) *
      2 ^ x.shift = 2 * lowerBoundary x.magnitude := by
  have hsig : x.magnitude = x.shift * 2 ^ 52 + x.significand := magnitude_eq x
  have hunits : unitsAt x.magnitude = x.significand * 2 ^ x.shift := rfl
  have hshift : x.shift = x.magnitude / 2 ^ 52 - 1 := rfl
  cases hk : x.magnitude with
  | zero =>
    have hzero : x.significand = 0 := by omega
    simp [hzero, lowerBoundary, unitsAt]
  | succ k =>
    have hstep := unitsAt_succ k
    rw [← hk, hunits] at hstep
    rw [lowerBoundary_succ, upperBoundary, ← hk, hunits]
    by_cases hpower : x.significand = 2 ^ 52 ∧ 0 < x.shift
    · -- the place below a power of two is half as wide
      have hbelow : x.shift = (k / 2 ^ 52 - 1) + 1 := by omega
      rw [if_pos hpower]
      rw [hbelow, pow_succ] at hstep ⊢
      rw [hpower.1] at hstep ⊢
      omega
    · have hbelow : k / 2 ^ 52 - 1 = x.shift := by omega
      rw [if_neg hpower]
      rw [hbelow] at hstep
      have hpos : 1 ≤ x.significand := by
        by_contra hzero
        have : x.shift * 2 ^ 52 = k + 1 := by omega
        omega
      obtain ⟨m, hm⟩ := Nat.exists_eq_add_of_le hpos
      rw [hm] at hstep ⊢
      have hk' : unitsAt k = m * 2 ^ x.shift := by
        have : (1 + m) * 2 ^ x.shift = m * 2 ^ x.shift + 2 ^ x.shift := by ring
        omega
      rw [hk', show 4 * (1 + m) - 2 = 4 * m + 2 by omega]
      ring

/-- A number lies between the boundaries of a magnitude; the ends belong to even magnitudes. -/
def Encloses (k : Nat) (v : ℚ) : Prop :=
  if k % 2 = 0 then lowerBoundary k ≤ 2 * (unitsPerOne * v) ∧ 2 * (unitsPerOne * v) ≤ upperBoundary k
  else lowerBoundary k < 2 * (unitsPerOne * v) ∧ 2 * (unitsPerOne * v) < upperBoundary k

/-- The test on naturals, with the ends of the interval as boundaries. -/
theorem readsBack_eq (x : Binary64) (c : Nat) (e : Int) :
    x.readsBack c e =
      let point := 2 * (unitsPerOne * (c * 10 ^ e.toNat))
      let low := lowerBoundary x.magnitude * 10 ^ (-e).toNat
      let high := upperBoundary x.magnitude * 10 ^ (-e).toNat
      if x.magnitude % 2 = 0 then low ≤ point && point ≤ high else low < point && point < high := by
  have hparity : x.significand % 2 = x.magnitude % 2 := by
    have := magnitude_eq x
    omega
  have hpoint : 4 * (c * 10 ^ e.toNat * unitsPerOne) = 2 * (2 * (unitsPerOne * (c * 10 ^ e.toNat))) := by ring
  have hscale (a : Nat) : a * (2 ^ x.shift * 10 ^ (-e).toNat) = a * 2 ^ x.shift * 10 ^ (-e).toNat :=
    (mul_assoc ..).symm
  simp only [readsBack]
  rw [hscale, hscale, four_units_sub, four_units_add, hpoint, hparity]
  simp only [mul_assoc 2, Nat.mul_le_mul_left_iff Nat.two_pos, Nat.mul_lt_mul_left Nat.two_pos]

theorem readsBack_iff {x : Binary64} {c : Nat} {e : Int} :
    x.readsBack c e = true ↔ Encloses x.magnitude (Decimal.mk c e).value := by
  have hpos : (0 : ℚ) < 10 ^ (-e).toNat := by positivity
  have hvalue : 2 * (unitsPerOne * (Decimal.mk c e).value) =
      ((2 * (unitsPerOne * (c * 10 ^ e.toNat)) : Nat) : ℚ) / 10 ^ (-e).toNat := by
    rw [Decimal.value, Decimal.zpow_eq_div]
    push_cast
    ring
  rw [readsBack_eq, Encloses, hvalue, le_div_iff₀ hpos, div_le_iff₀ hpos, lt_div_iff₀ hpos, div_lt_iff₀ hpos]
  norm_cast
  split <;> simp

/-- The intervals of two magnitudes have no number in common. -/
theorem Encloses.eq {j k : Nat} {v : ℚ} (hj : Encloses j v) (hk : Encloses k v) : j = k := by
  wlog hlt : j < k generalizing j k
  · by_contra hne
    exact hne (this hk hj (by omega)).symm
  obtain ⟨hle, hmeet⟩ := upperBoundary_le_lowerBoundary hlt
  have hle' : (upperBoundary j : ℚ) ≤ lowerBoundary k := by exact_mod_cast hle
  unfold Encloses at hj hk
  -- only neighbours share an end, and one of two neighbours is odd
  split_ifs at hj hk with hj2 hk2 hk2
  · have heq : upperBoundary j = lowerBoundary k := by
      have : (upperBoundary j : ℚ) = lowerBoundary k := by linarith [hj.2, hk.1]
      exact_mod_cast this
    have := hmeet heq
    omega
  · linarith [hj.2, hk.1]
  · linarith [hj.2, hk.1]
  · linarith [hj.2, hk.1]

/-- A number reads back as one magnitude only. -/
theorem magnitude_eq_of_readsBack {x y : Binary64} {d d' : Decimal}
    (hx : x.readsBack d.coefficient d.exponent = true) (hy : y.readsBack d'.coefficient d'.exponent = true)
    (h : d.value = d'.value) : x.magnitude = y.magnitude :=
  (readsBack_iff.mp hx).eq (h ▸ readsBack_iff.mp hy)

/-! ## Seventeen digits suffice -/

/-- Strictly between the boundaries a decimal reads back, whatever the parity. -/
theorem readsBack_of_lt {x : Binary64} {c : Nat} {e : Int}
    (hlow : lowerBoundary x.magnitude * 10 ^ (-e).toNat < 2 * (unitsPerOne * (c * 10 ^ e.toNat)))
    (hhigh : 2 * (unitsPerOne * (c * 10 ^ e.toNat)) < upperBoundary x.magnitude * 10 ^ (-e).toNat) :
    x.readsBack c e = true := by
  rw [readsBack_eq]
  dsimp only
  split
  · simp [hlow.le, hhigh.le]
  · simp [hlow, hhigh]

/-- On a grid that is finer than the distance of neighbouring doubles, one of the two neighbours of a double
on the grid reads back. -/
theorem readsBack_below_or_above {x : Binary64} {e : Int}
    (hfine : unitsPerOne * 10 ^ e.toNat * 10 ^ 16 ≤ x.units * 10 ^ (-e).toNat) :
    let below := x.units * 10 ^ (-e).toNat / (unitsPerOne * 10 ^ e.toNat)
    x.readsBack below e = true ∨ x.readsBack (below + 1) e = true := by
  intro below
  set D := unitsPerOne * 10 ^ e.toNat with hD
  set N := x.units * 10 ^ (-e).toNat with hN
  set S := 2 ^ x.shift * 10 ^ (-e).toNat with hS
  have hDpos : 0 < D := Nat.mul_pos unitsPerOne_pos (by positivity)
  have hSpos : 0 < S := by positivity
  have hNS : N = x.significand * S := by rw [hN, units, mul_assoc]
  have hpoint (c : Nat) : 2 * (unitsPerOne * (c * 10 ^ e.toNat)) = 2 * (c * D) := by rw [hD]; ring
  have hhigh : 2 * (upperBoundary x.magnitude * 10 ^ (-e).toNat) = 4 * N + 2 * S := by
    rw [← mul_assoc, ← four_units_add, hNS]
    ring
  have hlow : 2 * (lowerBoundary x.magnitude * 10 ^ (-e).toNat) =
      if x.significand = 2 ^ 52 ∧ 0 < x.shift then 4 * N - S else 4 * N - 2 * S := by
    rw [← mul_assoc, ← four_units_sub, mul_assoc, ← hS]
    split_ifs <;> rw [Nat.sub_mul, hNS] <;> ring_nf
  have hle : below * D ≤ N := Nat.div_mul_le_self N D
  have hlt : N < below * D + D := Nat.lt_div_mul_add hDpos
  have hsucc : (below + 1) * D = below * D + D := Nat.succ_mul below D
  have hwide : N ≤ (2 ^ 53 - 1) * S := by
    rw [hNS]
    exact Nat.mul_le_mul_right S (Nat.le_sub_one_of_lt x.significand_lt)
  by_cases habove : 4 * (below * D + D) < 4 * N + 2 * S
  · -- the upper neighbour is less than half a place away
    right
    refine readsBack_of_lt ?_ ?_ <;> rw [hpoint, hsucc]
    · split_ifs at hlow <;> omega
    · omega
  · -- then the lower one is, and the magnitude is not a power of two
    left
    refine readsBack_of_lt ?_ ?_ <;> rw [hpoint]
    · split_ifs at hlow with hpower
      · rw [hpower.1] at hNS
        omega
      · omega
    · omega

/-- The leading digit of a quotient of positive numbers is not above it. -/
theorem pow_leadingExponent_le {num den : Nat} (hnum : 0 < num) (hden : 0 < den) :
    den * 10 ^ (leadingExponent num den).toNat ≤ num * 10 ^ (-leadingExponent num den).toNat := by
  unfold leadingExponent
  split
  · rename_i hle
    have hq : 0 < num / den := Nat.div_pos hle hden
    have hlead : 10 ^ ((Decimal.digitsOfNat (num / den)).length - 1) ≤ num / den :=
      Decimal.pow_length_sub_one_le hq
    have hpos := Decimal.length_digitsOfNat_pos (num / den)
    rw [show (((Decimal.digitsOfNat (num / den)).length : Int) - 1).toNat =
        (Decimal.digitsOfNat (num / den)).length - 1 by omega,
      show (-(((Decimal.digitsOfNat (num / den)).length : Int) - 1)).toNat = 0 by omega, pow_zero, mul_one]
    calc den * 10 ^ ((Decimal.digitsOfNat (num / den)).length - 1)
        ≤ den * (num / den) := Nat.mul_le_mul_left den hlead
      _ ≤ num := Nat.mul_div_le num den
  · rename_i hlt
    set c := (den + num - 1) / num with hc
    have hbound : c ≤ 10 ^ (Decimal.digitsOfNat (c - 1)).length := by
      have := Decimal.lt_pow_length (c - 1)
      omega
    rw [show (-((Decimal.digitsOfNat (c - 1)).length : Int)).toNat = 0 by omega,
      show (-(-((Decimal.digitsOfNat (c - 1)).length : Int))).toNat = (Decimal.digitsOfNat (c - 1)).length by omega,
      pow_zero, mul_one]
    have hceil : den ≤ num * c := by
      have := Nat.lt_mul_div_succ (den + num - 1) hnum
      rw [← hc] at this
      have : num * (c + 1) = num * c + num := Nat.mul_succ num c
      omega
    exact hceil.trans (Nat.mul_le_mul_left num hbound)

/-- Sixteen places after the leading digit the grid is fine enough. -/
theorem fine_of_leadingExponent {x : Binary64} (hx : x.magnitude ≠ 0) :
    let e := leadingExponent x.units unitsPerOne - 16
    unitsPerOne * 10 ^ e.toNat * 10 ^ 16 ≤ x.units * 10 ^ (-e).toNat := by
  intro e
  have hunits : 0 < x.units := by
    rw [units_eq_unitsAt, show 0 = unitsAt 0 by rfl]
    exact strictMono_unitsAt (Nat.pos_of_ne_zero hx)
  have hlead := pow_leadingExponent_le hunits unitsPerOne_pos
  set top := leadingExponent x.units unitsPerOne with htop
  -- the sixteen places shrink the left power or grow the right one
  have hexp : e.toNat + 16 + (-top).toNat = top.toNat + (-e).toNat := by omega
  have hpow : 10 ^ e.toNat * 10 ^ 16 * 10 ^ (-top).toNat = 10 ^ top.toNat * 10 ^ (-e).toNat := by
    rw [← pow_add, ← pow_add, hexp, pow_add]
  refine Nat.le_of_mul_le_mul_right ?_ (show 0 < 10 ^ (-top).toNat by positivity)
  calc unitsPerOne * 10 ^ e.toNat * 10 ^ 16 * 10 ^ (-top).toNat
      = unitsPerOne * 10 ^ top.toNat * 10 ^ (-e).toNat := by
        rw [mul_assoc, mul_assoc, ← mul_assoc (10 ^ _), hpow, mul_assoc]
    _ ≤ x.units * 10 ^ (-top).toNat * 10 ^ (-e).toNat := Nat.mul_le_mul_right _ hlead
    _ = x.units * 10 ^ (-e).toNat * 10 ^ (-top).toNat := by ring

theorem readsBack_of_onGrid? {x : Binary64} {e : Int} {d : Decimal} (h : x.onGrid? e = some d) :
    x.readsBack d.coefficient d.exponent = true := by
  unfold onGrid? at h
  dsimp only at h
  split at h
  · rename_i hbelow habove
    rw [← Option.some.inj h]
    dsimp only
    split
    · exact hbelow
    · exact habove
  · rename_i hbelow _
    rw [← Option.some.inj h]
    exact hbelow
  · rename_i _ habove
    rw [← Option.some.inj h]
    exact habove
  · exact absurd h (by simp)

/-- With seventeen digits there is a decimal that reads back. -/
theorem onGrid?_leadingExponent_ne_none {x : Binary64} (hx : x.magnitude ≠ 0) :
    x.onGrid? (leadingExponent x.units unitsPerOne - 16) ≠ none := by
  have hneighbour := readsBack_below_or_above (fine_of_leadingExponent hx)
  unfold onGrid?
  dsimp only at hneighbour ⊢
  split
  · simp
  · simp
  · simp
  · rename_i hbelow habove
    rw [hbelow, habove] at hneighbour
    simp at hneighbour

/-- The shortest decimal of a double reads back. -/
theorem readsBack_shortest (x : Binary64) :
    x.readsBack x.shortest.coefficient x.shortest.exponent = true := by
  unfold shortest
  by_cases hx : x.magnitude = 0
  · rw [if_pos hx, readsBack_eq, hx]
    simp [lowerBoundary, unitsAt]
  · rw [if_neg hx]
    dsimp only
    cases hfind : (List.range 17).findSome? fun (n : Nat) =>
        x.onGrid? (leadingExponent x.units unitsPerOne - n) with
    | none =>
      have hlast := List.findSome?_eq_none_iff.mp hfind 16 (by decide)
      exact absurd hlast (onGrid?_leadingExponent_ne_none hx)
    | some d =>
      obtain ⟨n, -, hn⟩ := List.exists_of_findSome?_eq_some hfind
      exact readsBack_of_onGrid? hn

/-- Doubles of one sign with shortest decimals of one value are the same double. -/
theorem eq_of_shortest_value_eq {x y : Binary64} (hsign : x.negative = y.negative)
    (h : x.shortest.value = y.shortest.value) : x = y := by
  have hmag := magnitude_eq_of_readsBack x.readsBack_shortest y.readsBack_shortest h
  cases x
  cases y
  simp_all

end Binary64

end EntityQuery
