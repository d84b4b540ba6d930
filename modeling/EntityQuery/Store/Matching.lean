import EntityQuery.Json.Order
import EntityQuery.Store.Row
import EntityQuery.Text.Wildcard

/-!
# Matching

`Operator.test?` is the test that an operator makes of a present value with its list of values; there is
one exactly when the operator takes that number of values. `Condition.holds` and `Filter.holds` evaluate
conditions and filters on a row. A filter evaluates all its children before it joins their outcomes, so a
condition with a wrong number of values is never passed over.
-/

namespace EntityQuery

namespace Operator

/-- Whether both values are texts and pass a test. -/
def onTexts (test : List Char → List Char → Bool) (actual given : Json) : Bool :=
  match actual, given with
  | .string s, .string t => test s.toList t.toList
  | _, _ => false

/-- Whether two values compare and their order passes a test. -/
def onOrder (test : Ordering → Bool) (actual given : Json) : Bool := (actual.compare? given).any test

/-- Whether a value lies in a range with both ends. -/
def inRange (low high actual : Json) : Bool :=
  onOrder (· != .lt) actual low && onOrder (· != .gt) actual high

/-- Whether a text matches a pattern. -/
def isLike : Json → Json → Bool := onTexts fun text pattern => Wildcard.accepts pattern text

/-- The test of a value that is present and not null, `none` when the number of values is wrong. -/
def test? (op : Operator) (values : List Json) : Option (Json → Bool) :=
  match op, values with
  | .equal, [v] => some fun actual => actual.equivalent v
  | .notEqual, [v] => some fun actual => !actual.equivalent v
  | .greaterThan, [v] => some fun actual => onOrder (· == .gt) actual v
  | .greaterEqual, [v] => some fun actual => onOrder (· != .lt) actual v
  | .lessThan, [v] => some fun actual => onOrder (· == .lt) actual v
  | .lessEqual, [v] => some fun actual => onOrder (· != .gt) actual v
  | .like, [v] => some fun actual => isLike actual v
  | .notLike, [v] => some fun actual => !isLike actual v
  | .beginsWith, [v] => some fun actual => onTexts (fun text start => start.isPrefixOf text) actual v
  | .endsWith, [v] => some fun actual => onTexts (fun text ending => ending.isSuffixOf text) actual v
  | .isIn, values => some fun actual => values.any fun v => actual.equivalent v
  | .notIn, values => some fun actual => !values.any fun v => actual.equivalent v
  | .between, [low, high] => some fun actual => inRange low high actual
  | .notBetween, [low, high] => some fun actual => !inRange low high actual
  | .isNull, [] => some fun _ => false
  | .notNull, [] => some fun _ => true
  | _, _ => none

end Operator

/-- Evaluates a condition on a row; `scope` is that of the filter's owner. A value that is absent or null
passes the test for null alone. -/
def Condition.holds (c : Condition) (row : Row) (scope : String) : Except QueryError Bool :=
  match c.operator.test? c.values with
  | none => .error (.wrongValueCount c.attributeName c.operator c.values.length)
  | some test =>
    let actual := row.value (c.scope.getD scope) c.attributeName
    .ok (if actual.isNull then c.operator == .isNull else test actual)

namespace Filter

/-- Evaluates the conditions of a node, in order. -/
def conditionOutcomes (row : Row) (scope : String) : List Condition → Except QueryError (List Bool)
  | [] => .ok []
  | c :: rest => do
    let outcome ← c.holds row scope
    let outcomes ← conditionOutcomes row scope rest
    return outcome :: outcomes

mutual

/-- Evaluates a filter on a row: its conditions, then its nested filters, then their junction. -/
def holds : Filter → Row → String → Except QueryError Bool
  | ⟨junction, conditions, filters⟩, row, scope => do
    let own ← conditionOutcomes row scope conditions
    let nested ← outcomes filters row scope
    return junction.combine (own ++ nested)

/-- Evaluates the filters of a list, in order. -/
def outcomes : List Filter → Row → String → Except QueryError (List Bool)
  | [], _, _ => .ok []
  | f :: rest, row, scope => do
    let outcome ← holds f row scope
    let rest ← outcomes rest row scope
    return outcome :: rest

end

end Filter

end EntityQuery
