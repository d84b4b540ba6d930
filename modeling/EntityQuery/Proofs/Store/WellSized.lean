import EntityQuery.Store.Matching

/-!
# Filters with the right numbers of values

A condition is well sized when it has as many values as its operator takes, and a filter when all conditions in
its tree are. A well-sized filter is evaluated on every row without a failure.

* `Filter.allConditions`: the conditions of a tree in the order of their evaluation;
* `Operator.isSome_test?_iff`: an operator has a test just for the numbers of values that it takes;
* `Filter.WellSized.holds_ok`: the outcome exists.
-/

namespace EntityQuery

/-- The number of values is one that the operator takes. -/
def Condition.WellSized (c : Condition) : Prop := ∀ n, c.operator.arity = some n → c.values.length = n

theorem Operator.isSome_test?_iff (op : Operator) (values : List Json) :
    (op.test? values).isSome = true ↔ ∀ n, op.arity = some n → values.length = n := by
  -- lists of no value, one, two and more are all that the operators tell apart
  match values with
  | [] => cases op <;> simp [test?, arity]
  | [v] => cases op <;> simp [test?, arity]
  | [v, w] => cases op <;> simp [test?, arity]
  | v :: w :: x :: rest => cases op <;> simp [test?, arity]

theorem Condition.WellSized.holds_ok {c : Condition} (h : c.WellSized) (row : Row) (scope : String) :
    ∃ outcome, c.holds row scope = .ok outcome := by
  obtain ⟨test, htest⟩ := Option.isSome_iff_exists.mp ((c.operator.isSome_test?_iff c.values).mpr h)
  rw [holds, htest]
  exact ⟨_, rfl⟩

namespace Filter

mutual

/-- The conditions of a filter and of the filters below it, a node's own before those of its nested filters. -/
def allConditions : Filter → List Condition
  | ⟨_, conditions, filters⟩ => conditions ++ allConditionsOf filters

/-- The conditions of the filters of a list, in order. -/
def allConditionsOf : List Filter → List Condition
  | [] => []
  | f :: rest => allConditions f ++ allConditionsOf rest

end

/-- Every condition of the tree is well sized. -/
def WellSized (f : Filter) : Prop := ∀ c ∈ f.allConditions, c.WellSized

theorem conditionOutcomes_ok {conditions : List Condition} (h : ∀ c ∈ conditions, c.WellSized) (row : Row)
    (scope : String) : ∃ outcomes, conditionOutcomes row scope conditions = .ok outcomes := by
  induction conditions with
  | nil => exact ⟨[], rfl⟩
  | cons c rest ih =>
    obtain ⟨outcome, hc⟩ := (h c List.mem_cons_self).holds_ok row scope
    obtain ⟨outcomes, hrest⟩ := ih fun d hd => h d (List.mem_cons_of_mem c hd)
    refine ⟨outcome :: outcomes, ?_⟩
    rw [conditionOutcomes, hc, hrest]
    rfl

mutual

/-- **A well-sized filter has an outcome on every row.** -/
theorem WellSized.holds_ok : ∀ {f : Filter}, f.WellSized → ∀ (row : Row) (scope : String),
    ∃ outcome, f.holds row scope = .ok outcome
  | ⟨junction, conditions, filters⟩, h, row, scope => by
    rw [WellSized, allConditions] at h
    obtain ⟨own, hown⟩ := conditionOutcomes_ok (fun c hc => h c (List.mem_append_left _ hc)) row scope
    obtain ⟨nested, hnested⟩ := outcomes_ok filters (fun c hc => h c (List.mem_append_right _ hc)) row scope
    refine ⟨junction.combine (own ++ nested), ?_⟩
    rw [holds, hown, hnested]
    rfl

theorem outcomes_ok : ∀ fs : List Filter, (∀ c ∈ allConditionsOf fs, c.WellSized) →
    ∀ (row : Row) (scope : String), ∃ found, outcomes fs row scope = .ok found
  | [], _, _, _ => ⟨[], rfl⟩
  | f :: rest, h, row, scope => by
    rw [allConditionsOf] at h
    obtain ⟨outcome, hf⟩ := WellSized.holds_ok (f := f) (fun c hc => h c (List.mem_append_left _ hc)) row scope
    obtain ⟨found, hrest⟩ := outcomes_ok rest (fun c hc => h c (List.mem_append_right _ hc)) row scope
    refine ⟨outcome :: found, ?_⟩
    rw [outcomes, hf, hrest]
    rfl

end

end Filter

end EntityQuery
