import EntityQuery.Store.Matching

/-!
# Present values

A condition makes the test of its operator when the record of its scope has the attribute with a value that is not null.
Without such a value only the test for null accepts.

* `Row.has_iff`: what a row has is what does not read as null;
* `Condition.holds_of_has`, `Condition.holds_of_not_has`: the outcome with a value and without.
-/

namespace EntityQuery

/-- The record of a scope has the attribute, and its value is not null. -/
def Row.Has (row : Row) (scope name : String) : Prop :=
  ∃ r v, row scope = some r ∧ r.attribute? name = some v ∧ v.isNull = false

theorem Row.has_iff {row : Row} {scope name : String} : row.Has scope name ↔ (row.value scope name).isNull = false := by
  unfold Has value
  cases row scope with
  | none => simp [Json.isNull]
  | some r =>
    unfold Record.value
    cases hvalue : r.attribute? name with
    | none => simp [hvalue, Json.isNull]
    | some v => simp [hvalue]

namespace Condition

variable {c : Condition} {row : Row} {scope : String} {test : Json → Bool}

/-- A condition on a present value makes the test of its operator. -/
theorem holds_of_has (htest : c.operator.test? c.values = some test)
    (h : row.Has (c.scope.getD scope) c.attributeName) :
    c.holds row scope = .ok (test (row.value (c.scope.getD scope) c.attributeName)) := by
  unfold holds
  rw [htest]
  dsimp only
  rw [Row.has_iff.mp h, if_neg Bool.false_ne_true]

/-- A value that is absent or null passes the test for null alone. -/
theorem holds_of_not_has (htest : c.operator.test? c.values = some test)
    (h : ¬ row.Has (c.scope.getD scope) c.attributeName) : c.holds row scope = .ok (decide (c.operator = .isNull)) := by
  unfold holds
  rw [htest]
  dsimp only
  rw [if_pos (by simpa [Row.has_iff] using h)]
  rfl

end Condition

end EntityQuery
