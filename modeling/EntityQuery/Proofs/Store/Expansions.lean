import EntityQuery.Proofs.Store.FilterOrder
import EntityQuery.Proofs.Store.PresentValues

/-!
# Conditions that stand for filters

A list or a range of values is asked for in one condition, and a filter node of plain comparisons asks for the same.
Both have one outcome on every row; where the attribute is absent or null, the condition refuses the row, and so does
every comparison of the node. A node evaluates all its children and does not see their order, so a condition of a tree
can be exchanged for its expansion: the tree accepts and refuses the same rows, and where it fails it fails as it did.

* `Condition.Expansion`: the filters that conditions stand for;
* `Condition.Expansion.holds_eq`: a condition and its expansion have one outcome;
* `Operator.complement?`, `Condition.holds_complement`: operators that accept what others refuse;
* `Filter.Expanded.holds_eq`: a tree keeps its outcome when conditions in it are exchanged for their expansions;
* `operators_mean_their_expansions`: all of this in one statement.
-/

namespace EntityQuery

/-! ## Expansions -/

/-- The filter of plain comparisons that a condition stands for. A list stands for one when it has values. -/
inductive Condition.Expansion : Condition → Filter → Prop where
  | isIn (scope : Option String) (name : String) (v : Json) (vs : List Json) :
    Expansion { scope, attributeName := name, operator := .isIn, values := v :: vs }
      { junction := .or
        conditions := (v :: vs).map fun w => { scope, attributeName := name, operator := .equal, values := [w] } }
  | notIn (scope : Option String) (name : String) (v : Json) (vs : List Json) :
    Expansion { scope, attributeName := name, operator := .notIn, values := v :: vs }
      { junction := .and
        conditions := (v :: vs).map fun w => { scope, attributeName := name, operator := .notEqual, values := [w] } }
  | between (scope : Option String) (name : String) (low high : Json) :
    Expansion { scope, attributeName := name, operator := .between, values := [low, high] }
      { junction := .and
        conditions :=
          [{ scope, attributeName := name, operator := .greaterEqual, values := [low] },
            { scope, attributeName := name, operator := .lessEqual, values := [high] }] }

/-- A node whose conditions are made of values joins the outcomes for each of them. -/
theorem Filter.holds_of_map {row : Row} {scope : String} {condition : Json → Condition} {outcome : Json → Bool}
    {vs : List Json} (h : ∀ v ∈ vs, (condition v).holds row scope = .ok (outcome v)) (j : Junction) :
    holds { junction := j, conditions := vs.map condition } row scope = .ok (j.combine (vs.map outcome)) := by
  have hown : conditionOutcomes row scope (vs.map condition) = .ok (vs.map outcome) := by
    induction vs with
    | nil => rfl
    | cons v rest ih =>
      rw [List.forall_mem_cons] at h
      rw [List.map_cons, conditionOutcomes, h.1, ih h.2]
      rfl
  rw [holds, hown, outcomes]
  show Except.ok (j.combine (vs.map outcome ++ [])) = _
  rw [List.append_nil]

namespace Condition

/-- **A condition and its expansion have one outcome**, on every row. -/
theorem Expansion.holds_eq {c : Condition} {e : Filter} (h : c.Expansion e) (row : Row) (scope : String) :
    ∃ outcome, c.holds row scope = .ok outcome ∧ e.holds row scope = .ok outcome := by
  cases h with
  | isIn own name v vs =>
    by_cases hhas : row.Has (own.getD scope) name
    · refine ⟨_, holds_of_has rfl hhas, ?_⟩
      rw [Filter.holds_of_map (fun w _ => holds_of_has rfl hhas) .or]
      simp [Junction.combine]
    · refine ⟨_, holds_of_not_has rfl hhas, ?_⟩
      -- no comparison accepts an absent value, and the list is not empty
      rw [Filter.holds_of_map (fun w _ => holds_of_not_has rfl hhas) .or]
      simp [Junction.combine]
  | notIn own name v vs =>
    by_cases hhas : row.Has (own.getD scope) name
    · refine ⟨_, holds_of_has rfl hhas, ?_⟩
      rw [Filter.holds_of_map (fun w _ => holds_of_has rfl hhas) .and]
      simp [Junction.combine, List.not_any_eq_all_not]
    · refine ⟨_, holds_of_not_has rfl hhas, ?_⟩
      rw [Filter.holds_of_map (fun w _ => holds_of_not_has rfl hhas) .and]
      simp [Junction.combine]
  | between own name low high =>
    by_cases hhas : row.Has (own.getD scope) name
    · refine ⟨_, holds_of_has rfl hhas, ?_⟩
      rw [Filter.holds, Filter.conditionOutcomes, holds_of_has rfl hhas, Filter.conditionOutcomes,
        holds_of_has rfl hhas]
      simp [Filter.conditionOutcomes, Filter.outcomes, Junction.combine, Operator.inRange, bind, Except.bind, pure,
        Except.pure]
    · refine ⟨_, holds_of_not_has rfl hhas, ?_⟩
      rw [Filter.holds, Filter.conditionOutcomes, holds_of_not_has rfl hhas, Filter.conditionOutcomes,
        holds_of_not_has rfl hhas]
      rfl

end Condition

/-! ## Complements -/

/-- The operator that accepts the present values that this one refuses. -/
def Operator.complement? : Operator → Option Operator
  | .equal => some .notEqual
  | .like => some .notLike
  | .isIn => some .notIn
  | .between => some .notBetween
  | _ => none

/-- The complement of an operator takes the same lists of values, with the negated test. -/
theorem Operator.test?_complement {op op' : Operator} (h : op.complement? = some op') {values : List Json}
    {test : Json → Bool} (htest : op.test? values = some test) :
    op'.test? values = some fun actual => !test actual := by
  match op, values, h, htest with
  | .equal, [v], rfl, rfl => rfl
  | .like, [v], rfl, rfl => rfl
  | .isIn, vs, rfl, rfl => rfl
  | .between, [low, high], rfl, rfl => rfl

/-- Neither of two complements asks for null. -/
theorem Operator.ne_isNull_of_complement {op op' : Operator} (h : op.complement? = some op') :
    op ≠ .isNull ∧ op' ≠ .isNull := by
  match op, op', h with
  | .equal, _, rfl | .like, _, rfl | .isIn, _, rfl | .between, _, rfl => exact ⟨nofun, nofun⟩

namespace Condition

variable {c : Condition} {op : Operator}

/-- **A complement accepts the rows with a value that the operator refuses**, and neither accepts one without. -/
theorem holds_complement (h : c.operator.complement? = some op) (hsized : c.WellSized) (row : Row) (scope : String) :
    (row.Has (c.scope.getD scope) c.attributeName →
      ∃ outcome, c.holds row scope = .ok outcome ∧ { c with operator := op }.holds row scope = .ok !outcome) ∧
    (¬ row.Has (c.scope.getD scope) c.attributeName →
      c.holds row scope = .ok false ∧ { c with operator := op }.holds row scope = .ok false) := by
  obtain ⟨test, htest⟩ := Option.isSome_iff_exists.mp ((c.operator.isSome_test?_iff c.values).mpr hsized)
  have hcomplement := Operator.test?_complement h htest
  refine ⟨fun hhas => ⟨_, holds_of_has htest hhas, ?_⟩, fun hhas => ?_⟩
  · exact holds_of_has (c := { c with operator := op }) hcomplement hhas
  · obtain ⟨hne, hne'⟩ := Operator.ne_isNull_of_complement h
    rw [holds_of_not_has htest hhas, holds_of_not_has (c := { c with operator := op }) hcomplement hhas]
    exact ⟨congrArg Except.ok (decide_eq_false hne), congrArg Except.ok (decide_eq_false hne')⟩

/-- Every row passes one of the tests for null and for a value. -/
theorem holds_isNull_notNull (h : c.operator = .isNull) (hsized : c.WellSized) (row : Row) (scope : String) :
    ∃ outcome, c.holds row scope = .ok outcome ∧ { c with operator := .notNull }.holds row scope = .ok !outcome := by
  obtain ⟨own, name, op, values⟩ := c
  obtain rfl : op = .isNull := h
  obtain rfl : values = [] := List.length_eq_zero_iff.mp (hsized 0 rfl)
  by_cases hhas : row.Has (own.getD scope) name
  · have hnull := holds_of_has (c := ⟨own, name, .isNull, []⟩) rfl hhas
    have hvalue := holds_of_has (c := ⟨own, name, .notNull, []⟩) rfl hhas
    exact ⟨false, hnull, hvalue⟩
  · exact ⟨true, holds_of_not_has rfl hhas, holds_of_not_has rfl hhas⟩

end Condition

/-! ## Expansions in a tree -/

namespace Filter

/-- In the second tree some conditions of the first one, at any depth, are exchanged for their expansions. An expansion
stands anywhere among the nested filters of the node that had the condition. -/
inductive Expanded : Filter → Filter → Prop where
  | refl (f : Filter) : Expanded f f
  | condition {c : Condition} {e : Filter} (h : c.Expansion e) (j : Junction) (before after : List Condition)
    (above below : List Filter) :
    Expanded { junction := j, conditions := before ++ c :: after, filters := above ++ below }
      { junction := j, conditions := before ++ after, filters := above ++ e :: below }
  | nested {f g : Filter} (h : Expanded f g) (j : Junction) (conditions : List Condition) (above below : List Filter) :
    Expanded { junction := j, conditions, filters := above ++ f :: below }
      { junction := j, conditions, filters := above ++ g :: below }
  | trans {f g k : Filter} (h : Expanded f g) (h' : Expanded g k) : Expanded f k

theorem conditionOutcomes_append (cs ds : List Condition) (row : Row) (scope : String) :
    conditionOutcomes row scope (cs ++ ds) = do
      let first ← conditionOutcomes row scope cs
      let second ← conditionOutcomes row scope ds
      return first ++ second := by
  induction cs with
  | nil =>
    cases h : conditionOutcomes row scope ds with
    | error e => simp [conditionOutcomes, h, bind, Except.bind]
    | ok second => simp [conditionOutcomes, h, bind, Except.bind, pure, Except.pure]
  | cons c rest ih =>
    rw [List.cons_append, conditionOutcomes, conditionOutcomes, ih]
    cases c.holds row scope with
    | error e => rfl
    | ok outcome =>
      cases conditionOutcomes row scope rest with
      | error e => rfl
      | ok first =>
        cases conditionOutcomes row scope ds with
        | error e => rfl
        | ok second => rfl

/-- The outcome of a condition counts the same among those of the nested filters. -/
theorem holds_moved {c : Condition} {e : Filter} {row : Row} {scope : String} {outcome : Bool}
    (hc : c.holds row scope = .ok outcome) (he : e.holds row scope = .ok outcome) (j : Junction)
    (before after : List Condition) (above below : List Filter) :
    holds { junction := j, conditions := before ++ after, filters := above ++ e :: below } row scope =
      holds { junction := j, conditions := before ++ c :: after, filters := above ++ below } row scope := by
  rw [holds, holds, conditionOutcomes_append, conditionOutcomes_append, outcomes_append, outcomes_append,
    conditionOutcomes, outcomes, hc, he]
  -- either tree fails with the first failure among the parts that both have
  cases conditionOutcomes row scope before with
  | error e => rfl
  | ok xs =>
    cases conditionOutcomes row scope after with
    | error e => rfl
    | ok ys =>
      cases outcomes above row scope with
      | error e => rfl
      | ok zs =>
        cases outcomes below row scope with
        | error e => rfl
        | ok ws =>
          have hperm : ((xs ++ ys) ++ (zs ++ outcome :: ws)).Perm ((xs ++ outcome :: ys) ++ (zs ++ ws)) := by
            rw [← List.append_assoc]
            refine List.perm_middle.trans (.trans ?_ (List.perm_middle.append_right _).symm)
            rw [List.append_assoc]
            exact .refl _
          exact congrArg Except.ok (j.combine_perm hperm)

/-- **A tree with expansions in the place of conditions has the outcome it had**, failures included. -/
theorem Expanded.holds_eq {f g : Filter} (h : f.Expanded g) (row : Row) (scope : String) :
    g.holds row scope = f.holds row scope := by
  induction h with
  | refl f => rfl
  | condition h j before after above below =>
    obtain ⟨outcome, hc, he⟩ := h.holds_eq row scope
    exact holds_moved hc he j before after above below
  | nested _ j conditions above below ih =>
    rw [holds, holds, outcomes_append, outcomes_append, outcomes, outcomes, ih]
  | trans _ _ ih ih' => exact ih'.trans ih

end Filter

/-! ## What operators mean -/

/-- **Operators mean what their expansions mean.** A condition with a list of values, or with a range, has on every row
the outcome of the filter of comparisons that it stands for. Of an operator and its complement, with values that they
take, just one accepts a row with a value, of whatever kind, and none a row without; of the tests for null and for a
value just one accepts every row. So conditions in a tree can be exchanged for their expansions, and the outcome on
every row stays. -/
theorem operators_mean_their_expansions :
    (∀ (c : Condition) (e : Filter), c.Expansion e → ∀ (row : Row) (scope : String),
      ∃ outcome, c.holds row scope = .ok outcome ∧ e.holds row scope = .ok outcome) ∧
    (∀ (c : Condition) (op : Operator), c.operator.complement? = some op → c.WellSized →
      ∀ (row : Row) (scope : String),
        (row.Has (c.scope.getD scope) c.attributeName →
          ∃ outcome, c.holds row scope = .ok outcome ∧ { c with operator := op }.holds row scope = .ok !outcome) ∧
        (¬ row.Has (c.scope.getD scope) c.attributeName →
          c.holds row scope = .ok false ∧ { c with operator := op }.holds row scope = .ok false)) ∧
    (∀ c : Condition, c.operator = .isNull → c.WellSized → ∀ (row : Row) (scope : String),
      ∃ outcome, c.holds row scope = .ok outcome ∧
        { c with operator := .notNull }.holds row scope = .ok !outcome) ∧
    (∀ f g : Filter, f.Expanded g → ∀ (row : Row) (scope : String), g.holds row scope = f.holds row scope) :=
  ⟨fun _ _ h => h.holds_eq, fun _ _ => Condition.holds_complement, fun _ => Condition.holds_isNull_notNull,
    fun _ _ h => h.holds_eq⟩

/-- On an account in Oslo, a list of cities and a range, with an end that is no text, stand below an `or`. The account
has no fax. -/
theorem operators_mean_their_expansions_below_or :
    let condition (name : String) (operator : Operator) (values : List Json) : Condition :=
      { attributeName := name, operator, values }
    let cities := [Json.string "Rome", .null, .string "Oslo"]
    let listed := condition "city" .isIn cities
    let ranged := condition "city" .between [.string "A", .bool true]
    let f : Filter := { filters := [{ junction := .or, conditions := [ranged, listed] }] }
    let listed' : Filter := { junction := .or, conditions := cities.map fun v => condition "city" .equal [v] }
    let ranged' : Filter :=
      { conditions := [condition "city" .greaterEqual [.string "A"], condition "city" .lessEqual [.bool true]] }
    let g : Filter := { filters := [{ junction := .or, filters := [ranged', listed'] }] }
    let row : Row := .single "account" { logicalName := "account", attributes := .ofList [("city", .string "Oslo")] }
    f.Expanded g ∧ f.holds row "account" = .ok true ∧ g.holds row "account" = .ok true ∧
      (∃ outcome, ranged.holds row "account" = .ok outcome ∧ ranged'.holds row "account" = .ok outcome) ∧
      row.Has "account" "city" ∧
      (∃ outcome, ranged.holds row "account" = .ok outcome ∧
        { ranged with operator := .notBetween }.holds row "account" = .ok !outcome) ∧
      ¬ row.Has "account" "fax" ∧
      (condition "fax" .like [.string "%"]).holds row "account" = .ok false ∧
      (condition "fax" .notLike [.string "%"]).holds row "account" = .ok false ∧
      ∃ outcome, (condition "fax" .isNull []).holds row "account" = .ok outcome ∧
        (condition "fax" .notNull []).holds row "account" = .ok !outcome := by
  intro condition cities listed ranged f listed' ranged' g row
  have hlisted : listed.Expansion listed' := .isIn none "city" _ _
  have hranged : ranged.Expansion ranged' := .between none "city" _ _
  have hexpanded : f.Expanded g := by
    have hfirst := Filter.Expanded.condition hlisted .or [ranged] [] [] []
    exact .nested (hfirst.trans (.condition hranged .or [] [] [] [listed'])) .and [] [] []
  have hf : f.holds row "account" = .ok true := rfl
  have hcity : row.Has "account" "city" := ⟨_, _, rfl, rfl, rfl⟩
  have hfax : ¬ row.Has "account" "fax" := Row.has_iff.not.mpr nofun
  obtain ⟨hconditions, hcomplement, hnull, htree⟩ := operators_mean_their_expansions
  have hlike : (condition "fax" .like [.string "%"]).WellSized := by
    rintro n ⟨⟩
    rfl
  have hnone := (hcomplement _ .notLike rfl hlike row "account").2 hfax
  exact ⟨hexpanded, hf, (htree f g hexpanded row "account").trans hf, hconditions _ _ hranged row "account", hcity,
    (hcomplement ranged .notBetween rfl (by rintro n ⟨⟩; rfl) row "account").1 hcity, hfax, hnone.1, hnone.2,
    hnull (condition "fax" .isNull []) rfl (by rintro n ⟨⟩; rfl) row "account"⟩

end EntityQuery
