import EntityQuery.Json.Order
import EntityQuery.Proofs.Numeric.Shortest
import Mathlib.Data.String.Basic
import Mathlib.Order.Compare

/-!
# The order of sort values

`Json.Before` says which of two values comes first in an ascending column: null before everything, numbers by their
values as doubles, texts by code point, `false` before `true`. Values of different kinds have no order, and so a column
that mixes them is not sorted by `Before`. In a column of one kind and nulls a value that does not come before another
one and does not come behind it either stands at the same place as that one.

* `Binary64.rank_lt_rank_iff`: ranks order doubles by the numbers that they stand for;
* `Json.compareNullsFirst_eq_lt_iff`, `Json.compareNullsFirst_eq_gt_iff`: the comparison decides `Before`;
* `Json.Before.splits`: in a column of one kind, every value lies behind the lower or before the upper of two values.
-/

namespace EntityQuery

/-! ## Doubles -/

namespace Binary64

/-- The units of a double with its sign. -/
def signedUnits (x : Binary64) : Int := if x.negative then -x.units else x.units

/-- The number that a double stands for. -/
def value (x : Binary64) : ℚ := x.signedUnits / unitsPerOne

theorem signedUnits_lt_iff {x y : Binary64} : x.signedUnits < y.signedUnits ↔ x.rank < y.rank := by
  have hlt : unitsAt x.magnitude < unitsAt y.magnitude ↔ x.magnitude < y.magnitude := strictMono_unitsAt.lt_iff_lt
  have hgt : unitsAt y.magnitude < unitsAt x.magnitude ↔ y.magnitude < x.magnitude := strictMono_unitsAt.lt_iff_lt
  have hzero : unitsAt 0 = 0 := rfl
  have hx : unitsAt 0 < unitsAt x.magnitude ↔ 0 < x.magnitude := strictMono_unitsAt.lt_iff_lt
  have hy : unitsAt 0 < unitsAt y.magnitude ↔ 0 < y.magnitude := strictMono_unitsAt.lt_iff_lt
  unfold signedUnits rank
  rw [units_eq_unitsAt, units_eq_unitsAt]
  split_ifs <;> omega

/-- **Ranks order doubles by the numbers that they stand for.** -/
theorem rank_lt_rank_iff {x y : Binary64} : x.rank < y.rank ↔ x.value < y.value := by
  have hpos : (0 : ℚ) < unitsPerOne := by exact_mod_cast unitsPerOne_pos
  rw [value, value, div_lt_div_iff_of_pos_right hpos, Int.cast_lt, signedUnits_lt_iff]

end Binary64

/-! ## Values -/

namespace Json

/-- The kinds of values that have an order. -/
inductive Kind where
  | number
  | string
  | bool
deriving DecidableEq

/-- The kind of a value, if values of its kind have an order. -/
def kind? : Json → Option Kind
  | .number _ => some .number
  | .string _ => some .string
  | .bool _ => some .bool
  | _ => none

/-- A value comes before another one in ascending order. -/
inductive Before : Json → Json → Prop where
  | null {b : Json} (h : b.isNull = false) : Before .null b
  | number {m n : Number} (h : m.toBinary64.value < n.toBinary64.value) : Before (.number m) (.number n)
  | string {s t : String} (h : s < t) : Before (.string s) (.string t)
  | bool : Before (.bool false) (.bool true)

variable {a b c : Json}

theorem eq_null_of_isNull (h : a.isNull = true) : a = .null := by
  cases a <;> first | rfl | cases h

theorem compare?_swap (a b : Json) : compare? b a = (compare? a b).map Ordering.swap := by
  unfold compare?
  split
  · exact congrArg some Std.OrientedOrd.eq_swap
  · exact congrArg some Std.OrientedOrd.eq_swap
  · exact congrArg some Std.OrientedOrd.eq_swap
  · rename_i hnumber hstring hbool
    split
    · exact absurd rfl (hnumber _ _ rfl)
    · exact absurd rfl (hstring _ _ rfl)
    · exact absurd rfl (hbool _ _ rfl)
    · rfl

theorem compareNullsFirst_swap (a b : Json) : b.compareNullsFirst a = (a.compareNullsFirst b).swap := by
  unfold compareNullsFirst
  rw [compare?_swap a b]
  cases a.isNull <;> cases b.isNull <;> cases compare? a b <;> rfl

theorem before_of_compare? (h : compare? a b = some .lt) : Before a b := by
  unfold compare? at h
  split at h
  · exact .number (Binary64.rank_lt_rank_iff.mp (compare_lt_iff_lt.mp (Option.some.inj h)))
  · exact .string (compare_lt_iff_lt.mp (Option.some.inj h))
  · rename_i p q
    cases p <;> cases q <;> first | exact .bool | cases h
  · cases h

/-- **The comparison of sort values decides which of them comes first.** -/
theorem compareNullsFirst_eq_lt_iff : a.compareNullsFirst b = .lt ↔ Before a b := by
  constructor
  · intro h
    unfold compareNullsFirst at h
    split at h
    · cases h
    · rename_i ha hb
      rw [eq_null_of_isNull ha]
      exact .null hb
    · cases h
    · cases hcompare : compare? a b with
      | none =>
        rw [hcompare] at h
        cases h
      | some order =>
        rw [hcompare] at h
        obtain rfl : order = .lt := h
        exact before_of_compare? hcompare
  · rintro (h | h | h | _)
    · unfold compareNullsFirst
      rw [h]
      rfl
    · exact compare_lt_iff_lt.mpr (Binary64.rank_lt_rank_iff.mpr h)
    · exact compare_lt_iff_lt.mpr h
    · rfl

theorem compareNullsFirst_eq_gt_iff : a.compareNullsFirst b = .gt ↔ Before b a := by
  rw [← compareNullsFirst_eq_lt_iff, compareNullsFirst_swap a b]
  cases a.compareNullsFirst b <;> simp

/-- The values of a column of one kind: nulls and values of the kind. -/
def Fits (kind : Kind) (a : Json) : Prop := a.isNull = true ∨ a.kind? = some kind

instance (kind : Kind) (a : Json) : Decidable (a.Fits kind) := inferInstanceAs (Decidable (_ ∨ _))

theorem isNull_of_kind? {kind : Kind} (h : a.kind? = some kind) : a.isNull = false := by
  cases a <;> first | rfl | cases h

/-- Nothing comes before null. -/
theorem Before.isNull_eq_false (h : Before a b) : b.isNull = false := by
  cases h <;> first | rfl | assumption

theorem Fits.kind?_eq {kind : Kind} (h : a.Fits kind) (hnull : a.isNull = false) : a.kind? = some kind := by
  rcases h with h | h
  · rw [hnull] at h
    cases h
  · exact h

/-- **In a column of one kind, every value lies behind the lower or before the upper of two values.** -/
theorem Before.splits {kind : Kind} (h : Before a c) (hc : c.Fits kind) (hb : b.Fits kind) :
    Before a b ∨ Before b c := by
  rcases hb with hb | hb
  · rw [eq_null_of_isNull hb]
    exact .inr (.null h.isNull_eq_false)
  · have hkind := hc.kind?_eq h.isNull_eq_false
    rw [← hkind] at hb
    cases h with
    | null _ => exact .inl (.null (isNull_of_kind? (hb.trans hkind)))
    | @number m n hlt =>
      cases b with
      | number k =>
        rcases lt_or_ge m.toBinary64.value k.toBinary64.value with hbelow | hbelow
        · exact .inl (.number hbelow)
        · exact .inr (.number (hbelow.trans_lt hlt))
      | _ => cases hb
    | @string s t hlt =>
      cases b with
      | string u =>
        rcases lt_or_ge s u with hbelow | hbelow
        · exact .inl (.string hbelow)
        · exact .inr (.string (hbelow.trans_lt hlt))
      | _ => cases hb
    | bool =>
      cases b with
      | bool p =>
        cases p with
        | false => exact .inr .bool
        | true => exact .inl .bool
      | _ => cases hb

end Json

end EntityQuery
