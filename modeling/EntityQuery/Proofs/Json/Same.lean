import EntityQuery.Json.Basic
import Mathlib.Tactic.SplitIfs

/-!
# Sameness of values

Values are the same up to the signs of their zeros. So they have a normal form, in which no zero has a sign, and are the
same when their normal forms are equal; sameness is an equivalence because equality is one.

* `Binary64.normal`, `Json.normal`: normal forms;
* `Binary64.ieeeEq_iff`, `Json.same_iff`, `Json.sameMembers_iff`: what is the same has one normal form.
-/

namespace EntityQuery

/-! ## Numbers -/

namespace Binary64

variable {x y : Binary64}

theorem magnitude_eq_of_ieeeEq (h : x.ieeeEq y = true) : x.magnitude = y.magnitude := by
  have hrank : x.rank = y.rank := beq_iff_eq.mp h
  unfold rank at hrank
  split_ifs at hrank <;> omega

theorem negative_eq_of_ieeeEq (h : x.ieeeEq y = true) (hne : x.magnitude ≠ 0) : x.negative = y.negative := by
  have hrank : x.rank = y.rank := beq_iff_eq.mp h
  have hmagnitude := magnitude_eq_of_ieeeEq h
  unfold rank at hrank
  split_ifs at hrank with hx hy hy
  · rw [hx, hy]
  · omega
  · omega
  · rw [Bool.eq_false_iff.mpr hx, Bool.eq_false_iff.mpr hy]

/-- The double, with a positive zero in place of a negative one. -/
def normal (x : Binary64) : Binary64 := if x.magnitude = 0 then zero else x

theorem rank_normal (x : Binary64) : x.normal.rank = x.rank := by
  unfold normal
  split_ifs with hzero
  · rw [rank_zero, rank, hzero]
    simp
  · rfl

theorem ieeeEq_iff : x.ieeeEq y = true ↔ x.normal = y.normal := by
  constructor
  · intro h
    have hmagnitude := magnitude_eq_of_ieeeEq h
    unfold normal
    rw [← hmagnitude]
    split_ifs with hzero
    · rfl
    · have hsign := negative_eq_of_ieeeEq h hzero
      cases x
      cases y
      simp_all
  · intro h
    rw [ieeeEq, beq_iff_eq, ← rank_normal x, ← rank_normal y, h]

end Binary64

namespace Number

/-- The number without the sign of a zero. -/
def normal : Number → Number
  | .int n hn => .int n hn
  | .float x => .float x.normal

theorem same_iff {m n : Number} : m.same n = true ↔ m.normal = n.normal := by
  cases m <;> cases n <;> simp [same, normal, Binary64.ieeeEq_iff]

end Number

/-! ## Values -/

namespace Json

mutual

/-- The value without the signs of zeros. -/
def normal : Json → Json
  | .null => .null
  | .bool b => .bool b
  | .number n => .number n.normal
  | .string s => .string s
  | .array items => .array (normalItems items)
  | .object members => .object (normalMembers members)

def normalItems : List Json → List Json
  | [] => []
  | x :: rest => normal x :: normalItems rest

def normalMembers : List (String × Json) → List (String × Json)
  | [] => []
  | (name, x) :: rest => (name, normal x) :: normalMembers rest

end

mutual

/-- **Values are the same when their normal forms are equal.** -/
theorem same_iff : ∀ x y : Json, x.same y = true ↔ x.normal = y.normal
  | .null, y => by cases y <;> simp [same, normal]
  | .bool a, y => by cases y <;> simp [same, normal]
  | .number m, y => by cases y <;> simp [same, normal, Number.same_iff]
  | .string a, y => by cases y <;> simp [same, normal]
  | .array xs, y => by cases y <;> simp [same, normal, sameItems_iff xs]
  | .object xs, y => by cases y <;> simp [same, normal, sameMembers_iff xs]

theorem sameItems_iff : ∀ xs ys : List Json, sameItems xs ys = true ↔ normalItems xs = normalItems ys
  | [], [] => by simp [sameItems]
  | [], _ :: _ => by simp [sameItems, normalItems]
  | _ :: _, [] => by simp [sameItems, normalItems]
  | x :: xs, y :: ys => by simp [sameItems, normalItems, same_iff x, sameItems_iff xs]

theorem sameMembers_iff : ∀ xs ys : List (String × Json),
    sameMembers xs ys = true ↔ normalMembers xs = normalMembers ys
  | [], [] => by simp [sameMembers]
  | [], _ :: _ => by simp [sameMembers, normalMembers]
  | _ :: _, [] => by simp [sameMembers, normalMembers]
  | (m, x) :: xs, (n, y) :: ys => by simp [sameMembers, normalMembers, same_iff x, sameMembers_iff xs]

end

end Json

end EntityQuery
