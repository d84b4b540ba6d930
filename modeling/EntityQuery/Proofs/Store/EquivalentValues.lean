import EntityQuery.Proofs.Json.Equivalence
import EntityQuery.Proofs.SortedMap
import EntityQuery.Proofs.Store.WellSized

/-!
# Equivalent values in conditions

No operator tells equivalent values apart, neither in the row nor among the values that a condition is given: it compares
values, tests them for equivalence or looks at texts, and a text is equivalent to itself alone. So a condition has one
outcome on rows that hold equivalent values, and one outcome for equivalent values of its own.

* `Operator.test?_congr`: the tests of an operator with equivalent values agree on equivalent values;
* `Condition.holds_of_equivalent`: the outcome of a condition;
* `equivalent_values_are_interchangeable`: equivalence, and what it means for conditions.
-/

namespace EntityQuery

namespace Operator

variable {a a' v v' : Json}

theorem onOrder_congr (test : Ordering → Bool) (ha : a.equivalent a' = true) (hv : v.equivalent v' = true) :
    onOrder test a v = onOrder test a' v' := by
  unfold onOrder
  rw [Json.compare?_congr ha hv]

/-- Tests of texts look at nothing that queries do not see. -/
theorem onTexts_seen (test : List Char → List Char → Bool) (a v : Json) :
    onTexts test a.seen v.seen = onTexts test a v := by
  cases a <;> cases v <;> rfl

theorem onTexts_congr (test : List Char → List Char → Bool) (ha : a.equivalent a' = true)
    (hv : v.equivalent v' = true) : onTexts test a v = onTexts test a' v' := by
  rw [← onTexts_seen, Json.equivalent_iff.mp ha, Json.equivalent_iff.mp hv, onTexts_seen]

theorem any_equivalent_congr {values values' : List Json} (ha : a.equivalent a' = true)
    (hvalues : values.Forall₂ (fun v v' => v.equivalent v' = true) values') :
    (values.any fun v => a.equivalent v) = values'.any fun v => a'.equivalent v := by
  induction hvalues with
  | nil => rfl
  | cons hv _ ih => rw [List.any_cons, List.any_cons, Json.equivalent_congr ha hv, ih]

theorem inRange_congr {low low' high high' : Json} (hlow : low.equivalent low' = true)
    (hhigh : high.equivalent high' = true) (ha : a.equivalent a' = true) :
    inRange low high a = inRange low' high' a' := by
  unfold inRange
  rw [onOrder_congr _ ha hlow, onOrder_congr _ ha hhigh]

/-- Values that are equivalent one by one to a single value are a single one. -/
theorem exists_single {values values' : List Json}
    (hvalues : values.Forall₂ (fun v v' => v.equivalent v' = true) values') (hlength : values.length = 1) :
    ∃ v v', values = [v] ∧ values' = [v'] ∧ v.equivalent v' = true := by
  obtain ⟨v, rfl⟩ := List.length_eq_one_iff.mp hlength
  obtain _ | ⟨hv, _ | _⟩ := hvalues
  exact ⟨v, _, rfl, rfl, hv⟩

theorem exists_pair {values values' : List Json}
    (hvalues : values.Forall₂ (fun v v' => v.equivalent v' = true) values') (hlength : values.length = 2) :
    ∃ v w v' w', values = [v, w] ∧ values' = [v', w'] ∧ v.equivalent v' = true ∧ w.equivalent w' = true := by
  obtain ⟨v, w, rfl⟩ := List.length_eq_two.mp hlength
  obtain _ | ⟨hv, _ | ⟨hw, _ | _⟩⟩ := hvalues
  exact ⟨v, w, _, _, rfl, rfl, hv, hw⟩

/-- **The tests of an operator with equivalent values agree on equivalent values.** -/
theorem test?_congr {op : Operator} {values values' : List Json} {test : Json → Bool}
    (hvalues : values.Forall₂ (fun v v' => v.equivalent v' = true) values') (htest : op.test? values = some test) :
    ∃ test', op.test? values' = some test' ∧ ∀ a a', a.equivalent a' = true → test a = test' a' := by
  have hlength := (op.isSome_test?_iff values).mp (by rw [htest]; rfl)
  cases op with
  | equal =>
    obtain ⟨v, v', rfl, rfl, hv⟩ := exists_single hvalues (hlength 1 rfl)
    cases htest
    exact ⟨_, rfl, fun a a' ha => Json.equivalent_congr ha hv⟩
  | notEqual =>
    obtain ⟨v, v', rfl, rfl, hv⟩ := exists_single hvalues (hlength 1 rfl)
    cases htest
    exact ⟨_, rfl, fun a a' ha => congrArg not (Json.equivalent_congr ha hv)⟩
  | greaterThan | greaterEqual | lessThan | lessEqual =>
    obtain ⟨v, v', rfl, rfl, hv⟩ := exists_single hvalues (hlength 1 rfl)
    cases htest
    exact ⟨_, rfl, fun a a' ha => onOrder_congr _ ha hv⟩
  | like | beginsWith | endsWith =>
    obtain ⟨v, v', rfl, rfl, hv⟩ := exists_single hvalues (hlength 1 rfl)
    cases htest
    exact ⟨_, rfl, fun a a' ha => onTexts_congr _ ha hv⟩
  | notLike =>
    obtain ⟨v, v', rfl, rfl, hv⟩ := exists_single hvalues (hlength 1 rfl)
    cases htest
    exact ⟨_, rfl, fun a a' ha => congrArg not (onTexts_congr _ ha hv)⟩
  | isIn =>
    cases htest
    exact ⟨_, rfl, fun a a' ha => any_equivalent_congr ha hvalues⟩
  | notIn =>
    cases htest
    exact ⟨_, rfl, fun a a' ha => congrArg not (any_equivalent_congr ha hvalues)⟩
  | between =>
    obtain ⟨low, high, low', high', rfl, rfl, hlow, hhigh⟩ := exists_pair hvalues (hlength 2 rfl)
    cases htest
    exact ⟨_, rfl, fun a a' ha => inRange_congr hlow hhigh ha⟩
  | notBetween =>
    obtain ⟨low, high, low', high', rfl, rfl, hlow, hhigh⟩ := exists_pair hvalues (hlength 2 rfl)
    cases htest
    exact ⟨_, rfl, fun a a' ha => congrArg not (inRange_congr hlow hhigh ha)⟩
  | isNull | notNull =>
    obtain rfl := List.length_eq_zero_iff.mp (hlength 0 rfl)
    cases hvalues
    cases htest
    exact ⟨_, rfl, fun _ _ _ => rfl⟩

end Operator

/-- **A condition has one outcome on rows that hold equivalent values**, and keeps it when its own values are exchanged
for equivalent ones. -/
theorem Condition.holds_of_equivalent {c : Condition} {values : List Json} {row row' : Row} {scope : String}
    (hrow : (row.value (c.scope.getD scope) c.attributeName).equivalent
      (row'.value (c.scope.getD scope) c.attributeName) = true)
    (hvalues : c.values.Forall₂ (fun v w => v.equivalent w = true) values) :
    c.holds row scope = { c with values }.holds row' scope := by
  unfold holds
  cases htest : c.operator.test? c.values with
  | some test =>
    obtain ⟨test', htest', hagree⟩ := Operator.test?_congr hvalues htest
    rw [htest']
    dsimp only
    rw [hagree _ _ hrow, Json.isNull_congr hrow]
  | none =>
    have hnone : c.operator.test? values = none := by
      rw [← Option.not_isSome_iff_eq_none, Operator.isSome_test?_iff, ← hvalues.length_eq, ← Operator.isSome_test?_iff,
        htest]
      exact Bool.false_ne_true
    rw [hnone, hvalues.length_eq]

/-! ## Values in the place of others -/

/-- Rows that hold equivalent values in one place, and are one row otherwise, hold equivalent values everywhere. -/
theorem Row.equivalent_value_set {a b : Json} (h : a.equivalent b = true) (row : Row) (r : Record)
    (scope name scope' name' : String) : ((row.bind scope (r.set name a)).value scope' name').equivalent
      ((row.bind scope (r.set name b)).value scope' name') = true := by
  have hrefl := Json.equivalence_equivalent.refl
  by_cases hscope : scope' = scope
  · subst hscope
    unfold value
    rw [bind_self, bind_self]
    show ((r.set name a).attributes.get? name' |>.getD .null).equivalent
      ((r.set name b).attributes.get? name' |>.getD .null) = true
    rw [Record.set, Record.set, SortedMap.get?_insert, SortedMap.get?_insert]
    by_cases hname : name' = name
    · rw [if_pos hname, if_pos hname]
      exact h
    · rw [if_neg hname, if_neg hname]
      exact hrefl _
  · unfold value
    rw [bind_of_ne _ _ hscope, bind_of_ne _ _ hscope]
    exact hrefl _

/-- **Equivalent values can stand for each other.** Values are equivalent when queries see the same of them, so equivalence
is reflexive, symmetric and transitive, on all values. A condition, with any operator and values, has one outcome on rows
that hold equivalent values where it looks, so an equivalent value can be put anywhere in a row; and it has one outcome
when one of its values is exchanged for an equivalent one. -/
theorem equivalent_values_are_interchangeable :
    (∀ a b : Json, a.equivalent b = true ↔ a.seen = b.seen) ∧
    Equivalence (fun a b : Json => a.equivalent b = true) ∧
    (∀ (c : Condition) (row row' : Row) (scope : String),
      (row.value (c.scope.getD scope) c.attributeName).equivalent
        (row'.value (c.scope.getD scope) c.attributeName) = true →
      c.holds row scope = c.holds row' scope) ∧
    (∀ a b : Json, a.equivalent b = true →
      ∀ (c : Condition) (row : Row) (r : Record) (holder name scope : String),
        c.holds (row.bind holder (r.set name a)) scope = c.holds (row.bind holder (r.set name b)) scope) ∧
    (∀ (c : Condition) (before after : List Json) (v w : Json), c.values = before ++ v :: after →
      v.equivalent w = true → ∀ (row : Row) (scope : String),
        c.holds row scope = { c with values := before ++ w :: after }.holds row scope) := by
  have hrefl := Json.equivalence_equivalent.refl
  have hsame : ∀ values : List Json, values.Forall₂ (fun v w => v.equivalent w = true) values :=
    fun values => List.forall₂_same.mpr fun v _ => hrefl v
  refine ⟨fun a b => Json.equivalent_iff, Json.equivalence_equivalent, fun c row row' scope h => ?_,
    fun a b h c row r holder name scope => ?_, fun c before after v w hvalues h row scope => ?_⟩
  · exact Condition.holds_of_equivalent h (hsame c.values)
  · exact Condition.holds_of_equivalent (Row.equivalent_value_set h row r holder name _ _) (hsame c.values)
  · refine Condition.holds_of_equivalent (hrefl _) ?_
    rw [hvalues]
    exact List.rel_append (hsame before) (.cons h (hsame after))

/-- One as an integer and as a double, and lists with the two zeros, on an account and in a range. Below a list the kinds
of numbers stay apart. -/
theorem equivalent_values_are_interchangeable_one :
    let one : Json := .number (.int 1 (by decide))
    let oneDouble : Json := .number (.float ⟨false, 1023 * 2 ^ 52, by decide⟩)
    let zeros (negative : Bool) : Json := .array [.number (.float (.signedZero negative)), .null]
    let account : Record := { logicalName := "account", attributes := .ofList [("name", .string "Acme")] }
    let row (v : Json) : Row := Row.bind (fun _ => none) "account" (account.set "rating" v)
    let range : Condition := { attributeName := "rating", operator := .between, values := [one, one] }
    let listed : Condition := { attributeName := "rating", operator := .isIn, values := [.string "1", zeros false] }
    one.equivalent oneDouble = true ∧ (zeros false).equivalent (zeros true) = true ∧
      (Json.array [one]).equivalent (.array [oneDouble]) = false ∧
      range.holds (row one) "account" = range.holds (row oneDouble) "account" ∧
      range.holds (row one) "account" = { range with values := [one] ++ [oneDouble] }.holds (row one) "account" ∧
      listed.holds (row (zeros true)) "account" = .ok true := by
  intro one oneDouble zeros account row range listed
  have hone : one.equivalent oneDouble = true := by decide +kernel
  have hzeros : (zeros false).equivalent (zeros true) = true := rfl
  obtain ⟨-, -, -, hrow, hvalues⟩ := equivalent_values_are_interchangeable
  refine ⟨hone, hzeros, rfl, hrow one oneDouble hone range _ account "account" "rating" "account",
    hvalues range [one] [] one oneDouble rfl hone (row one) "account", ?_⟩
  rw [← hrow _ _ hzeros listed _ account "account" "rating" "account"]
  rfl

end EntityQuery
