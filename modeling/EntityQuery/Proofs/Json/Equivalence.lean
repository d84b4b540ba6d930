import EntityQuery.Proofs.Json.Order
import EntityQuery.Proofs.Json.Same

/-!
# Equivalent values

Numbers are equivalent when the doubles nearest to them stand at one place, whichever of the two kinds of numbers they
are; below an array or an object the kinds stay apart. So what queries see of a value is for a number the double, without
the sign of a zero, and for every other value its normal form. Values are equivalent when this is equal, and comparison
depends on nothing else.

* `Json.equivalent_iff`: values are equivalent when queries see the same of them;
* `Json.equivalence_equivalent`: it is an equivalence;
* `Json.compare?_congr`, `Json.equivalent_congr`: comparison does not tell equivalent values apart.
-/

namespace EntityQuery.Json

variable {a a' b b' : Json}

/-- What queries see of a value. -/
def seen : Json → Json
  | .number n => .number (.float n.toBinary64.normal)
  | a => a.normal

theorem compare?_seen (a b : Json) : compare? a.seen b.seen = compare? a b := by
  cases a with
  | number m =>
    cases b with
    | number n =>
      show some (compare m.toBinary64.normal.rank n.toBinary64.normal.rank) = _
      rw [Binary64.rank_normal, Binary64.rank_normal, compare?]
    | _ => rfl
  | _ => cases b <;> rfl

/-- Values without an order are equivalent when they are the same. -/
theorem equivalent_of_kind?_eq_none (h : a.kind? = none) : a.equivalent b = a.same b := by
  cases a with
  | null | array _ | object _ => cases b <;> rfl
  | _ => cases h

/-- Numbers are equivalent when their doubles are equal, but for the sign of a zero. -/
theorem equivalent_number_iff {m n : Number} :
    (number m).equivalent (number n) = true ↔ m.toBinary64.normal = n.toBinary64.normal := by
  rw [← Binary64.ieeeEq_iff, Binary64.ieeeEq, beq_iff_eq, equivalent, compare?, beq_iff_eq, compare_eq_iff_eq]

/-- **Values are equivalent when queries see the same of them.** -/
theorem equivalent_iff : a.equivalent b = true ↔ a.seen = b.seen := by
  cases a with
  | number m =>
    cases b with
    | number n => simp [equivalent_number_iff, seen]
    | _ => simp [equivalent, compare?, same, seen, normal]
  | string s =>
    cases b with
    | string t => simp [equivalent, compare?, seen, normal]
    | _ => simp [equivalent, compare?, same, seen, normal]
  | bool p =>
    cases b with
    | bool q => simp [equivalent, compare?, seen, normal]
    | _ => simp [equivalent, compare?, same, seen, normal]
  | null | array xs | object xs =>
    rw [equivalent_of_kind?_eq_none rfl, same_iff]
    cases b <;> simp [seen, normal]

/-- **Equivalent values form classes.** -/
theorem equivalence_equivalent : Equivalence fun a b : Json => a.equivalent b = true where
  refl _ := equivalent_iff.mpr rfl
  symm h := equivalent_iff.mpr (equivalent_iff.mp h).symm
  trans h h' := equivalent_iff.mpr ((equivalent_iff.mp h).trans (equivalent_iff.mp h'))

/-- Comparison does not tell equivalent values apart. -/
theorem compare?_congr (ha : a.equivalent a' = true) (hb : b.equivalent b' = true) : compare? a b = compare? a' b' := by
  rw [← compare?_seen, equivalent_iff.mp ha, equivalent_iff.mp hb, compare?_seen]

theorem equivalent_congr (ha : a.equivalent a' = true) (hb : b.equivalent b' = true) :
    a.equivalent b = a'.equivalent b' := by
  rw [Bool.eq_iff_iff, equivalent_iff, equivalent_iff, equivalent_iff.mp ha, equivalent_iff.mp hb]

/-- Only null is equivalent to null. -/
theorem isNull_congr (h : a.equivalent b = true) : a.isNull = b.isNull := by
  have hseen : ∀ c : Json, c.seen.isNull = c.isNull := fun c => by cases c <;> rfl
  rw [← hseen a, equivalent_iff.mp h, hseen]

end EntityQuery.Json
