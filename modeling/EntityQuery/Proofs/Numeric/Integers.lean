import EntityQuery.Proofs.Numeric.Shortest

/-!
# The doubles nearest to integers

A double has 53 binary digits, so an integer with more of them is rounded when it becomes one. `Binary64.roundInt` is
that rounding, said on integers alone: the digits behind the first 53 go, and a half goes to the even neighbour.

* `Binary64.units_ofInt?`: the double of an integer stands for the rounded integer;
* `Binary64.roundInt_mono`: rounding never changes the order of two integers into the opposite one;
* `Binary64.roundInt_eq_self`: integers up to `2 ^ 53` in absolute value are kept;
* `Binary64.abs_roundInt_sub_le`: no integer moves by more than one part in `2 ^ 53`.
-/

namespace EntityQuery.Binary64

/-! ## Rounded quotients -/

section Quotients

variable {a b c den num : Nat}

/-- The two ways in which a quotient is rounded. -/
theorem roundHalfEven_cases (num den : Nat) :
    (roundHalfEven num den = num / den + 1 ∧
      (den < 2 * (num % den) ∨ 2 * (num % den) = den ∧ num / den % 2 = 1)) ∨
    (roundHalfEven num den = num / den ∧
      ¬ (den < 2 * (num % den) ∨ 2 * (num % den) = den ∧ num / den % 2 = 1)) := by
  unfold roundHalfEven
  simp only [Bool.or_eq_true, decide_eq_true_eq, Bool.and_eq_true, beq_iff_eq]
  split_ifs with h
  · exact .inl ⟨rfl, h⟩
  · exact .inr ⟨rfl, h⟩

theorem roundHalfEven_mono (h : a ≤ b) (den : Nat) : roundHalfEven a den ≤ roundHalfEven b den := by
  have hquotient : a / den ≤ b / den := Nat.div_le_div_right h
  rcases Nat.lt_or_eq_of_le hquotient with hlt | heq
  · rcases roundHalfEven_cases a den with ⟨ha, -⟩ | ⟨ha, -⟩ <;>
      rcases roundHalfEven_cases b den with ⟨hb, -⟩ | ⟨hb, -⟩ <;> omega
  · -- one quotient, so the remainders are in the order of the numbers
    have hremainder : a % den ≤ b % den := by
      have ha := Nat.div_add_mod a den
      have hb := Nat.div_add_mod b den
      rw [heq] at ha
      omega
    rcases roundHalfEven_cases a den with ⟨ha, hup⟩ | ⟨ha, -⟩ <;>
      rcases roundHalfEven_cases b den with ⟨hb, -⟩ | ⟨hb, hdown⟩ <;> omega

theorem roundHalfEven_mul_self (k : Nat) (hden : 0 < den) : roundHalfEven (k * den) den = k := by
  have hquotient : k * den / den = k := Nat.mul_div_cancel k hden
  have hremainder : k * den % den = 0 := Nat.mul_mod_left k den
  rcases roundHalfEven_cases (k * den) den with ⟨-, hup⟩ | ⟨h, -⟩
  · rw [hremainder] at hup
    omega
  · exact h.trans hquotient

theorem roundHalfEven_mul_right (num den : Nat) (hc : 0 < c) :
    roundHalfEven (num * c) (den * c) = roundHalfEven num den := by
  have hquotient : num * c / (den * c) = num / den := Nat.mul_div_mul_right num den hc
  have htwice : 2 * (num * c % (den * c)) = 2 * (num % den) * c := by
    rw [Nat.mul_mod_mul_right, Nat.mul_assoc]
  unfold roundHalfEven
  simp only [hquotient, htwice, Nat.mul_lt_mul_right hc, Nat.mul_left_inj hc.ne', Bool.beq_eq_decide_eq]

/-- A quotient moves by half a unit at most. -/
theorem roundHalfEven_dist (num : Nat) (hden : 0 < den) :
    2 * num ≤ 2 * (roundHalfEven num den * den) + den ∧ 2 * (roundHalfEven num den * den) ≤ 2 * num + den := by
  have hsplit : num / den * den + num % den = num := Nat.div_add_mod' num den
  have hlt : num % den < den := Nat.mod_lt num hden
  rcases roundHalfEven_cases num den with ⟨h, hup⟩ | ⟨h, hdown⟩
  · rw [h, Nat.succ_mul (num / den)]
    omega
  · rw [h]
    omega

theorem le_roundHalfEven (hden : 0 < den) (h : c * den ≤ num) : c ≤ roundHalfEven num den := by
  have hmono := roundHalfEven_mono h den
  rwa [roundHalfEven_mul_self c hden] at hmono

theorem roundHalfEven_le (hden : 0 < den) (h : num ≤ c * den) : roundHalfEven num den ≤ c := by
  have hmono := roundHalfEven_mono h den
  rwa [roundHalfEven_mul_self c hden] at hmono

end Quotients

/-! ## The first 53 digits -/

/-- The worth of the last of the first 53 binary digits of a number. -/
def lastPlace (n : Nat) : Nat := 2 ^ (Nat.log2 n - 52)

/-- A number rounded to its first 53 binary digits. -/
def roundNat (n : Nat) : Nat := roundHalfEven n (lastPlace n) * lastPlace n

/-- An integer rounded to its first 53 binary digits, with its sign. -/
def roundInt (n : Int) : Int := if n < 0 then -(roundNat n.natAbs : Int) else roundNat n.natAbs

section Rounding

variable {m n : Nat}

theorem lastPlace_pos (n : Nat) : 0 < lastPlace n := Nat.two_pow_pos _

theorem lastPlace_of_lt (h : n < 2 ^ 53) : lastPlace n = 1 := by
  have hlog : Nat.log2 n < 53 := by
    by_cases hn : n = 0
    · subst hn
      decide
    · exact (Nat.log2_lt hn).mpr h
  rw [lastPlace, Nat.sub_eq_zero_of_le (by omega), Nat.pow_zero]

theorem roundNat_of_le (h : n ≤ 2 ^ 53) : roundNat n = n := by
  rcases Nat.lt_or_eq_of_le h with hlt | rfl
  · have hself := roundHalfEven_mul_self n Nat.one_pos
    rw [Nat.mul_one] at hself
    rw [roundNat, lastPlace_of_lt hlt, hself, Nat.mul_one]
  · decide

/-- The first 53 digits of a number that has as many lie between `2 ^ 52` and `2 ^ 53`. -/
theorem lastPlace_bounds (h : 2 ^ 52 ≤ n) : 2 ^ 52 * lastPlace n ≤ n ∧ n < 2 ^ 53 * lastPlace n := by
  have hn : n ≠ 0 := by omega
  have hlog : 52 ≤ Nat.log2 n := (Nat.le_log2 hn).mpr h
  have hlow : 2 ^ Nat.log2 n ≤ n := Nat.log2_self_le hn
  have hhigh : n < 2 ^ (Nat.log2 n + 1) := Nat.lt_log2_self
  have hsplit : Nat.log2 n = 52 + (Nat.log2 n - 52) := by omega
  have hsucc : Nat.log2 n + 1 = 53 + (Nat.log2 n - 52) := by omega
  unfold lastPlace
  rw [← Nat.pow_add, ← Nat.pow_add, ← hsplit, ← hsucc]
  exact ⟨hlow, hhigh⟩

theorem le_roundNat (h : 2 ^ 52 ≤ n) : 2 ^ 52 * lastPlace n ≤ roundNat n :=
  Nat.mul_le_mul_right _ (le_roundHalfEven (lastPlace_pos n) (lastPlace_bounds h).1)

theorem roundNat_le (h : 2 ^ 52 ≤ n) : roundNat n ≤ 2 ^ 53 * lastPlace n :=
  Nat.mul_le_mul_right _ (roundHalfEven_le (lastPlace_pos n) (lastPlace_bounds h).2.le)

theorem roundNat_mono (h : m ≤ n) : roundNat m ≤ roundNat n := by
  by_cases hm : m ≤ 2 ^ 53
  · rw [roundNat_of_le hm]
    by_cases hn : n ≤ 2 ^ 53
    · rwa [roundNat_of_le hn]
    · -- past `2 ^ 53` nothing is rounded below it
      have hplace : 2 ≤ lastPlace n := by
        have := lastPlace_bounds (n := n) (by omega)
        omega
      have := le_roundNat (n := n) (by omega)
      omega
  · have hm' : 2 ^ 52 ≤ m := by omega
    have hn' : 2 ^ 52 ≤ n := by omega
    have hlog : Nat.log2 m ≤ Nat.log2 n := (Nat.le_log2 (by omega)).mpr ((Nat.log2_self_le (by omega)).trans h)
    rcases Nat.lt_or_eq_of_le hlog with hlt | heq
    · -- the place of the greater number is at least twice as much worth
      have hplaces : 2 * lastPlace m ≤ lastPlace n := by
        have hmlog : 52 ≤ Nat.log2 m := (Nat.le_log2 (by omega)).mpr hm'
        unfold lastPlace
        rw [← Nat.pow_succ']
        exact Nat.pow_le_pow_right Nat.two_pos (by omega)
      calc roundNat m ≤ 2 ^ 53 * lastPlace m := roundNat_le hm'
        _ = 2 ^ 52 * (2 * lastPlace m) := by rw [← Nat.mul_assoc]
        _ ≤ 2 ^ 52 * lastPlace n := Nat.mul_le_mul_left _ hplaces
        _ ≤ roundNat n := le_roundNat hn'
    · have hplaces : lastPlace m = lastPlace n := by rw [lastPlace, lastPlace, heq]
      rw [roundNat, roundNat, hplaces]
      exact Nat.mul_le_mul_right _ (roundHalfEven_mono h _)

/-- A number moves by one part in `2 ^ 53` at most. -/
theorem roundNat_dist (n : Nat) : 2 ^ 53 * n ≤ 2 ^ 53 * roundNat n + n ∧ 2 ^ 53 * roundNat n ≤ 2 ^ 53 * n + n := by
  by_cases hn : n ≤ 2 ^ 53
  · rw [roundNat_of_le hn]
    omega
  · have hplace := (lastPlace_bounds (n := n) (by omega)).1
    have hdist := roundHalfEven_dist n (lastPlace_pos n)
    rw [← roundNat] at hdist
    omega

/-- Rounding does not depend on the unit that a number is counted in. -/
theorem roundNat_two_mul (n : Nat) : roundNat (2 * n) = 2 * roundNat n := by
  by_cases hn : 2 * n ≤ 2 ^ 53
  · rw [roundNat_of_le hn, roundNat_of_le (by omega)]
  · have hlog : 52 ≤ Nat.log2 n := (Nat.le_log2 (by omega)).mpr (by omega)
    have hplace : lastPlace (2 * n) = 2 * lastPlace n := by
      unfold lastPlace
      rw [Nat.log2_two_mul (by omega), ← Nat.pow_succ', Nat.succ_eq_add_one, Nat.sub_add_comm hlog]
    rw [roundNat, hplace, Nat.mul_comm 2 n, Nat.mul_comm 2 (lastPlace n), roundHalfEven_mul_right _ _ Nat.two_pos,
      ← Nat.mul_assoc, ← roundNat, Nat.mul_comm]

theorem roundNat_mul_pow (n w : Nat) : roundNat (n * 2 ^ w) = roundNat n * 2 ^ w := by
  induction w with
  | zero => rw [Nat.pow_zero, Nat.mul_one, Nat.mul_one]
  | succ w ih => rw [Nat.pow_succ', Nat.mul_left_comm, roundNat_two_mul, ih, Nat.mul_left_comm]

end Rounding

/-! ## Integers -/

section Integers

variable {m n : Int}

theorem roundInt_mono (h : m ≤ n) : roundInt m ≤ roundInt n := by
  unfold roundInt
  split_ifs with hm hn hn
  · -- of two negative integers the greater one has the lesser absolute value
    have hnat : n.natAbs ≤ m.natAbs := by omega
    have := roundNat_mono hnat
    omega
  · omega
  · omega
  · have hnat : m.natAbs ≤ n.natAbs := by omega
    have := roundNat_mono hnat
    omega

/-- Integers up to `2 ^ 53` in absolute value are kept. -/
theorem roundInt_eq_self (h : n.natAbs ≤ 2 ^ 53) : roundInt n = n := by
  unfold roundInt
  rw [roundNat_of_le h]
  split_ifs <;> omega

/-- No integer moves by more than one part in `2 ^ 53`. -/
theorem abs_roundInt_sub_le (n : Int) : 2 ^ 53 * |roundInt n - n| ≤ |n| := by
  have hdist := roundNat_dist n.natAbs
  unfold roundInt
  split_ifs with hn
  · rw [abs_of_neg hn]
    rcases abs_cases (-(roundNat n.natAbs : Int) - n) with ⟨h, -⟩ | ⟨h, -⟩ <;> rw [h] <;> omega
  · rw [abs_of_nonneg (Int.not_lt.mp hn)]
    rcases abs_cases ((roundNat n.natAbs : Int) - n) with ⟨h, -⟩ | ⟨h, -⟩ <;> rw [h] <;> omega

/-- Rounding keeps the order of two integers when one is below `2 ^ 53` in absolute value, or neither is above. -/
theorem roundInt_lt_iff (h : m.natAbs < 2 ^ 53 ∨ n.natAbs < 2 ^ 53 ∨ m.natAbs ≤ 2 ^ 53 ∧ n.natAbs ≤ 2 ^ 53) :
    roundInt m < roundInt n ↔ m < n := by
  have hkept (k : Int) (hk : k.natAbs ≤ 2 ^ 53) : roundInt k = k := roundInt_eq_self hk
  -- an integer past a bound is not rounded to below it
  have hbound (k : Int) : (2 ^ 53 ≤ k → 2 ^ 53 ≤ roundInt k) ∧ (k ≤ -2 ^ 53 → roundInt k ≤ -2 ^ 53) := by
    have hpos := hkept (2 ^ 53) (by decide)
    have hneg := hkept (-2 ^ 53) (by decide)
    exact ⟨fun hk => hpos ▸ roundInt_mono hk, fun hk => hneg ▸ roundInt_mono hk⟩
  have hm := hbound m
  have hn := hbound n
  have hm' := hkept m
  have hn' := hkept n
  omega

end Integers

/-! ## The doubles of integers -/

/-- The units of a magnitude, from a significand with 53 digits or the next power of two. -/
theorem unitsAt_add {significand : Nat} (hlow : 2 ^ 52 ≤ significand) (hhigh : significand ≤ 2 ^ 53) (shift : Nat) :
    unitsAt (shift * 2 ^ 52 + significand) = significand * 2 ^ shift := by
  unfold unitsAt
  rcases Nat.lt_or_eq_of_le hhigh with hlt | rfl
  · have hdiv : (shift * 2 ^ 52 + significand) / 2 ^ 52 - 1 = shift := by omega
    have hmod : (shift * 2 ^ 52 + significand) % 2 ^ 52 + 2 ^ 52 = significand := by omega
    rw [if_neg (by omega), hdiv, hmod]
  · -- the significand overflows into the exponent
    have hdiv : (shift * 2 ^ 52 + 2 ^ 53) / 2 ^ 52 - 1 = shift + 1 := by omega
    have hmod : (shift * 2 ^ 52 + 2 ^ 53) % 2 ^ 52 + 2 ^ 52 = 2 ^ 52 := by omega
    rw [if_neg (by omega), hdiv, hmod, Nat.pow_succ]
    ring

theorem log2_mul_pow_lt {n k w : Nat} (h : n < 2 ^ k) (hne : n * 2 ^ w ≠ 0) : Nat.log2 (n * 2 ^ w) < k + w := by
  rw [Nat.log2_lt hne, Nat.pow_add]
  exact Nat.mul_lt_mul_of_pos_right h (Nat.two_pow_pos w)

/-- A number of units that is within bounds has a nearest double, which stands for the rounded number. -/
theorem exists_ofMagnitude? {scaled : Nat} (hlow : 2 ^ 52 ≤ scaled) (hhigh : Nat.log2 scaled < 2000) (negative : Bool) :
    ∃ x, ofMagnitude? negative ((Nat.log2 scaled - 52) * 2 ^ 52 + roundHalfEven scaled (lastPlace scaled)) = some x ∧
      x.negative = negative ∧ x.units = roundNat scaled := by
  have hbounds := lastPlace_bounds hlow
  have hleast : 2 ^ 52 ≤ roundHalfEven scaled (lastPlace scaled) := le_roundHalfEven (lastPlace_pos _) hbounds.1
  have hgreatest : roundHalfEven scaled (lastPlace scaled) ≤ 2 ^ 53 := roundHalfEven_le (lastPlace_pos _) hbounds.2.le
  have hfinite : (Nat.log2 scaled - 52) * 2 ^ 52 + roundHalfEven scaled (lastPlace scaled) < 2047 * 2 ^ 52 := by omega
  refine ⟨_, dif_pos hfinite, rfl, ?_⟩
  exact unitsAt_add hleast hgreatest _

/-- **The double of an integer stands for the rounded integer.** -/
theorem units_ofInt? {n : Int} (h : -2 ^ 63 ≤ n ∧ n < 2 ^ 64) :
    ∃ x, ofInt? n = some x ∧ x.negative = decide (n < 0) ∧ x.units = roundNat n.natAbs * unitsPerOne := by
  by_cases hzero : n = 0
  · subst hzero
    have hround : roundNat (Int.natAbs 0) = 0 := roundNat_of_le (Nat.zero_le _)
    refine ⟨zero, by decide +kernel, rfl, ?_⟩
    rw [hround, Nat.zero_mul]
    rfl
  · have hbits : n.natAbs < 2 ^ 64 := by omega
    have hscaled : n.natAbs * unitsPerOne ≠ 0 := Nat.mul_ne_zero (Int.natAbs_ne_zero.mpr hzero) unitsPerOne_pos.ne'
    have hunit : 2 ^ 52 ≤ unitsPerOne := by decide +kernel
    have hlow : 2 ^ 52 ≤ n.natAbs * unitsPerOne :=
      hunit.trans (Nat.le_mul_of_pos_left _ (Int.natAbs_pos.mpr hzero))
    have hhigh : Nat.log2 (n.natAbs * unitsPerOne) < 64 + 1074 := by
      rw [unitsPerOne] at hscaled ⊢
      exact log2_mul_pow_lt (k := 64) (w := 1074) hbits hscaled
    obtain ⟨x, hx, hsign, hunits⟩ := exists_ofMagnitude? hlow (hhigh.trans (by decide)) (decide (n < 0))
    refine ⟨x, ?_, hsign, ?_⟩
    · rw [← hx, ofInt?, ofRatio?, Nat.div_one, Nat.one_mul, lastPlace]
    · rw [hunits, unitsPerOne, roundNat_mul_pow n.natAbs 1074]

end EntityQuery.Binary64
