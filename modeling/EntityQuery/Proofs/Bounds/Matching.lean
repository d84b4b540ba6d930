import EntityQuery.Proofs.Bounds.Wildcard
import EntityQuery.Proofs.Store.WellSized

/-!
# Conditions that read their values by position

An operator reads the values of its condition at the positions that it expects them at, and only when the comparison
comes to them: the upper end of a range is not read for a value below the lower end. Nothing but the count of the
values, which is compared with the arity beforehand, keeps these reads within the list.

* `Checked`: evaluations that may fail, and whose reads are checked;
* `Operator.checkedTest_eq`: where an operator has a test, its reads are within the values;
* `Filter.checkedHolds_eq`: filters are evaluated without a breach.
-/

namespace EntityQuery

/-! ## Checked evaluations -/

/-- An evaluation that may fail, and whose reads are checked. -/
abbrev Checked (α : Type) := ExceptT QueryError (Except Breach) α

namespace Checked

variable {α β : Type}

/-- An evaluation without a breach. -/
def of (x : Except QueryError α) : Checked α := ExceptT.mk (.ok x)

/-- A checked read within an evaluation. -/
def reading (x : Except Breach α) : Checked α := ExceptT.lift x

@[simp] theorem pure_eq_of (a : α) : (pure a : Checked α) = of (.ok a) := rfl

/-- An evaluation makes no breach when none of its steps does on what the steps before it come to. -/
theorem of_bind_eq {x : Except QueryError α} {f : α → Checked β} {g : α → Except QueryError β}
    (h : ∀ a, x = .ok a → f a = of (g a)) : (of x >>= f) = of (x >>= g) := by
  cases x with
  | error e => rfl
  | ok a => exact h a rfl

@[simp] theorem of_bind (x : Except QueryError α) (f : α → Except QueryError β) :
    (of x >>= fun a => of (f a)) = of (x >>= f) :=
  of_bind_eq fun _ _ => rfl

end Checked

/-! ## Conditions -/

namespace Operator

/-- The first of the values passes a test. -/
def checkedFirst (values : List Json) (test : Json → Bool) : Except Breach Bool := do
  let v ← itemAt values 0
  return test v

/-- The search of a text for the pattern that is the first of the values. -/
def checkedLike (values : List Json) (actual : Json) : Except Breach Bool := do
  let v ← itemAt values 0
  match actual, v with
  | .string text, .string pattern => Wildcard.checkedAccepts pattern.toList text.toList
  | _, _ => return false

/-- A range with the first two values as its ends. The second is read when the first leaves it open. -/
def checkedInRange (values : List Json) (actual : Json) : Except Breach Bool := do
  let low ← itemAt values 0
  if onOrder (· != .lt) actual low then
    let high ← itemAt values 1
    return onOrder (· != .gt) actual high
  else return false

/-- What an operator says of a value that is present, with the values of its condition read by position. -/
def checkedTest (op : Operator) (values : List Json) (actual : Json) : Except Breach Bool :=
  match op with
  | .equal => checkedFirst values fun v => actual.equivalent v
  | .notEqual => checkedFirst values fun v => !actual.equivalent v
  | .greaterThan => checkedFirst values (onOrder (· == .gt) actual)
  | .greaterEqual => checkedFirst values (onOrder (· != .lt) actual)
  | .lessThan => checkedFirst values (onOrder (· == .lt) actual)
  | .lessEqual => checkedFirst values (onOrder (· != .gt) actual)
  | .like => checkedLike values actual
  | .notLike => (checkedLike values actual).map not
  | .beginsWith => checkedFirst values (onTexts (fun text start => start.isPrefixOf text) actual)
  | .endsWith => checkedFirst values (onTexts (fun text ending => ending.isSuffixOf text) actual)
  | .isIn => .ok (values.any fun v => actual.equivalent v)
  | .notIn => .ok (!values.any fun v => actual.equivalent v)
  | .between => checkedInRange values actual
  | .notBetween => (checkedInRange values actual).map not
  | .isNull => .ok false
  | .notNull => .ok true

theorem checkedLike_eq (v actual : Json) : checkedLike [v] actual = .ok (isLike actual v) := by
  cases actual with
  | string text =>
    cases v with
    | string pattern => exact Wildcard.checkedAccepts_eq _ _
    | _ => rfl
  | _ => rfl

theorem checkedInRange_eq (low high actual : Json) :
    checkedInRange [low, high] actual = .ok (inRange low high actual) := by
  show (if onOrder (· != .lt) actual low then Except.ok (onOrder (· != .gt) actual high) else .ok false) = _
  unfold inRange
  cases onOrder (· != .lt) actual low <;> rfl

/-- **The reads of an operator that has a test are within the values.** -/
theorem checkedTest_eq {op : Operator} {values : List Json} {test : Json → Bool} (h : op.test? values = some test)
    (actual : Json) : op.checkedTest values actual = .ok (test actual) := by
  unfold test? at h
  split at h <;> cases h
  case h_7 v => exact checkedLike_eq v actual
  case h_8 v => exact congrArg (Except.map not) (checkedLike_eq v actual)
  case h_13 low high => exact checkedInRange_eq low high actual
  case h_14 low high => exact congrArg (Except.map not) (checkedInRange_eq low high actual)
  -- the other operators read the first value or none
  all_goals rfl

/-- Without the count of the values nothing would keep the reads within them. -/
example : checkedTest .between [.bool false] (.bool true) = .error .index := by rfl

end Operator

/-- Evaluates a condition: the count of the values first, then the value under the scope, then the operator. -/
def Condition.checkedHolds (c : Condition) (row : Row) (scope : String) : Checked Bool :=
  if c.operator.arity.any (· != c.values.length) then
    throw (.wrongValueCount c.attributeName c.operator c.values.length)
  else
    let actual := row.value (c.scope.getD scope) c.attributeName
    if actual.isNull then return c.operator == .isNull
    else .reading (c.operator.checkedTest c.values actual)

/-- The count of the values is wrong just where the operator has no test. -/
theorem Operator.any_arity_ne (op : Operator) (values : List Json) :
    op.arity.any (· != values.length) = (op.test? values).isNone := by
  rw [Bool.eq_iff_iff, Option.isNone_iff_eq_none, ← Option.not_isSome_iff_eq_none, op.isSome_test?_iff values]
  cases op.arity with
  | none => simp
  | some n => simp [eq_comm (a := values.length)]

theorem Condition.checkedHolds_eq (c : Condition) (row : Row) (scope : String) :
    c.checkedHolds row scope = .of (c.holds row scope) := by
  unfold checkedHolds holds
  rw [Operator.any_arity_ne]
  cases htest : c.operator.test? c.values with
  | none => rfl
  | some test =>
    rw [Option.isNone_some, if_neg Bool.false_ne_true]
    dsimp only
    rw [Operator.checkedTest_eq htest]
    split_ifs <;> rfl

/-! ## Filters -/

namespace Filter

/-- Evaluates the conditions of a node, in order. -/
def checkedOutcomes (row : Row) (scope : String) : List Condition → Checked (List Bool)
  | [] => return []
  | c :: rest => do
    let outcome ← c.checkedHolds row scope
    let outcomes ← checkedOutcomes row scope rest
    return outcome :: outcomes

mutual

/-- Evaluates a filter: its conditions, then its nested filters, then their junction. -/
def checkedHolds : Filter → Row → String → Checked Bool
  | ⟨junction, conditions, filters⟩, row, scope => do
    let own ← checkedOutcomes row scope conditions
    let nested ← checkedNested filters row scope
    return junction.combine (own ++ nested)

/-- Evaluates the filters of a list, in order. -/
def checkedNested : List Filter → Row → String → Checked (List Bool)
  | [], _, _ => return []
  | f :: rest, row, scope => do
    let outcome ← checkedHolds f row scope
    let outcomes ← checkedNested rest row scope
    return outcome :: outcomes

end

theorem checkedOutcomes_eq (row : Row) (scope : String) (conditions : List Condition) :
    checkedOutcomes row scope conditions = .of (conditionOutcomes row scope conditions) := by
  induction conditions with
  | nil => rfl
  | cons c rest ih =>
    simp only [checkedOutcomes, Condition.checkedHolds_eq, ih, Checked.pure_eq_of, Checked.of_bind]
    rfl

mutual

/-- **A filter is evaluated without a breach.** -/
theorem checkedHolds_eq : ∀ (f : Filter) (row : Row) (scope : String),
    f.checkedHolds row scope = .of (f.holds row scope)
  | ⟨junction, conditions, filters⟩, row, scope => by
    simp only [checkedHolds, checkedOutcomes_eq, checkedNested_eq filters, Checked.pure_eq_of, Checked.of_bind]
    rfl

theorem checkedNested_eq : ∀ (filters : List Filter) (row : Row) (scope : String),
    checkedNested filters row scope = .of (outcomes filters row scope)
  | [], _, _ => rfl
  | f :: rest, row, scope => by
    simp only [checkedNested, checkedHolds_eq f, checkedNested_eq rest, Checked.pure_eq_of, Checked.of_bind]
    rfl

end

end Filter

end EntityQuery
