import EntityQuery.Proofs.Store.Sorting
import EntityQuery.Query.Steps

/-!
# Filters added to a query

A filter that is added to a query goes below the root of the criteria or next to it, depending on the junction of the
root. Either way the new criteria accept what the old ones and the filter accept, and they fail where one of the two
fails, because a node evaluates all its children before it joins their outcomes.

* `Filter.holds_conjoin`, `Query.outcome_restrict`: the outcome with one more filter is that of both, in order;
* `Query.accepts_restrictAll_iff`, `Query.failed_restrictAll_iff`: the outcome with a list of filters;
* `Query.filterRows_eq_ok_iff`: the rows that criteria keep, and when they can be had;
* `Query.added_filters_conjoin`: what all of this says of the answer, and that the order of the calls does not count.
-/

namespace EntityQuery

/-! ## Outcomes -/

section Outcomes

variable {α ε : Type} {x y : Except ε Bool}

/-- The evaluation ended in an error. -/
def Failed (x : Except ε α) : Prop := ∃ e, x = .error e

/-- The outcome of two evaluations, one after the other, both of which have to accept. -/
def both (x y : Except ε Bool) : Except ε Bool := do
  let first ← x
  let second ← y
  return first && second

theorem accepted_iff : accepted x = true ↔ x = .ok true := by
  cases x with
  | error e => simp [accepted]
  | ok outcome => simp [accepted]

theorem not_failed_iff {x : Except ε α} : ¬ Failed x ↔ ∃ outcome, x = .ok outcome := by
  cases x with
  | error e => simp [Failed]
  | ok outcome => simp [Failed]

@[simp] theorem both_true_left (y : Except ε Bool) : both (.ok true) y = y := by
  cases y <;> rfl

theorem both_eq_true_iff : both x y = .ok true ↔ x = .ok true ∧ y = .ok true := by
  unfold both
  rw [bind_eq_ok_iff]
  constructor
  · rintro ⟨first, rfl, h⟩
    obtain ⟨second, rfl, h⟩ := bind_eq_ok_iff.mp h
    have hboth : (first && second) = true := Except.ok.inj h
    rw [Bool.and_eq_true] at hboth
    rw [hboth.1, hboth.2]
    exact ⟨rfl, rfl⟩
  · rintro ⟨rfl, rfl⟩
    exact ⟨true, rfl, rfl⟩

theorem failed_both_iff : Failed (both x y) ↔ Failed x ∨ Failed y := by
  cases x with
  | error e => simp [Failed, both, bind, Except.bind]
  | ok first =>
    cases y with
    | error e => simp [Failed, both, bind, Except.bind]
    | ok second => simp [Failed, both, bind, Except.bind, pure, Except.pure]

theorem accepted_both : accepted (both x y) = (accepted x && accepted y) := by
  rw [Bool.eq_iff_iff, Bool.and_eq_true, accepted_iff, accepted_iff, accepted_iff, both_eq_true_iff]

/-- Items can be selected when no test of one fails, and then those that pass are kept. -/
theorem keepThat_eq_ok_iff {test : α → Except ε Bool} {xs kept : List α} : keepThat test xs = .ok kept ↔
    (∀ x ∈ xs, ¬ Failed (test x)) ∧ kept = xs.filter fun x => accepted (test x) := by
  constructor
  · intro h
    refine ⟨?_, keepThat_eq h⟩
    induction xs generalizing kept with
    | nil => simp
    | cons x rest ih =>
      obtain ⟨outcome, hx, h⟩ := bind_eq_ok_iff.mp h
      obtain ⟨found, hrest, -⟩ := bind_eq_ok_iff.mp h
      rw [List.forall_mem_cons]
      exact ⟨not_failed_iff.mpr ⟨outcome, hx⟩, ih hrest⟩
  · rintro ⟨hok, rfl⟩
    obtain ⟨found, hfound⟩ := keepThat_ok fun x hx => not_failed_iff.mp (hok x hx)
    rw [hfound, keepThat_eq hfound]

end Outcomes

/-! ## One more filter -/

namespace Filter

variable {row : Row} {scope : String}

theorem outcomes_append (fs gs : List Filter) (row : Row) (scope : String) : outcomes (fs ++ gs) row scope = do
    let first ← outcomes fs row scope
    let second ← outcomes gs row scope
    return first ++ second := by
  induction fs with
  | nil =>
    cases h : outcomes gs row scope with
    | error e => simp [outcomes, h, bind, Except.bind]
    | ok second => simp [outcomes, h, bind, Except.bind, pure, Except.pure]
  | cons f rest ih =>
    rw [List.cons_append, outcomes, outcomes, ih]
    cases f.holds row scope with
    | error e => rfl
    | ok outcome =>
      cases outcomes rest row scope with
      | error e => rfl
      | ok first =>
        cases outcomes gs row scope with
        | error e => rfl
        | ok second => rfl

/-- A filter below an `and` is evaluated after what the node had. -/
theorem holds_addNested {root : Filter} (h : root.junction = .and) (added : Filter) (row : Row) (scope : String) :
    (root.addNested added).holds row scope = both (root.holds row scope) (added.holds row scope) := by
  obtain ⟨junction, conditions, filters⟩ := root
  obtain rfl : junction = .and := h
  unfold addNested
  rw [holds, holds, outcomes_append, outcomes, outcomes]
  cases conditionOutcomes row scope conditions with
  | error e => rfl
  | ok own =>
    cases outcomes filters row scope with
    | error e => rfl
    | ok nested =>
      cases added.holds row scope with
      | error e => rfl
      | ok outcome =>
        show Except.ok _ = Except.ok _
        simp [Junction.combine, List.all_append, Bool.and_assoc]

/-- A pair of filters below a new `and` is evaluated in order. -/
theorem holds_pair (root added : Filter) (row : Row) (scope : String) :
    holds { filters := [root, added] } row scope = both (root.holds row scope) (added.holds row scope) := by
  rw [holds, outcomes, outcomes, outcomes]
  cases root.holds row scope with
  | error e => rfl
  | ok first =>
    cases added.holds row scope with
    | error e => rfl
    | ok second =>
      show Except.ok _ = Except.ok _
      simp [Junction.combine]

/-- **A conjunction is evaluated as both filters in order**, whatever the junction of the root. -/
theorem holds_conjoin (root added : Filter) (row : Row) (scope : String) :
    (root.conjoin added).holds row scope = both (root.holds row scope) (added.holds row scope) := by
  unfold conjoin
  cases hjunction : root.junction with
  | and => exact holds_addNested hjunction added row scope
  | or => exact holds_pair root added row scope

end Filter

/-! ## Criteria of a query -/

namespace Query

variable {q : Query} {fs gs : List Filter} {row : Row} {scope : String}

/-- The outcome of the criteria on a row, which is to accept when there are none. -/
def outcome (q : Query) (row : Row) (scope : String) : Except QueryError Bool :=
  match q.criteria with
  | none => .ok true
  | some criteria => criteria.holds row scope

theorem not_failed_outcome (h : ∀ f, q.criteria = some f → f.WellSized) (row : Row) (scope : String) :
    ¬ Failed (q.outcome row scope) := by
  rw [not_failed_iff]
  unfold outcome
  cases hcriteria : q.criteria with
  | none => exact ⟨true, rfl⟩
  | some f => exact (h f hcriteria).holds_ok row scope

/-- Adds filters one after the other. -/
def restrictAll (q : Query) (fs : List Filter) : Query := fs.foldl restrict q

@[simp] theorem restrictAll_nil (q : Query) : q.restrictAll [] = q := rfl

@[simp] theorem restrictAll_cons (q : Query) (f : Filter) (fs : List Filter) :
    q.restrictAll (f :: fs) = (q.restrict f).restrictAll fs := rfl

/-- Steps that add filters add those that they build. -/
theorem build_restrict (q : Query) (calls : List (List FilterStep)) :
    q.build (calls.map .restrict) = q.restrictAll (calls.map Filter.ofSteps) := by
  unfold build restrictAll
  rw [List.foldl_map, List.foldl_map]
  rfl

theorem outcome_restrict (q : Query) (f : Filter) (row : Row) (scope : String) :
    (q.restrict f).outcome row scope = both (q.outcome row scope) (f.holds row scope) := by
  unfold outcome restrict
  cases hcriteria : q.criteria with
  | none => exact (both_true_left _).symm
  | some root => exact root.holds_conjoin f row scope

theorem accepts_restrictAll_iff : (q.restrictAll fs).outcome row scope = .ok true ↔
    q.outcome row scope = .ok true ∧ ∀ f ∈ fs, f.holds row scope = .ok true := by
  induction fs generalizing q with
  | nil => simp
  | cons f rest ih => rw [restrictAll_cons, ih, outcome_restrict, both_eq_true_iff, List.forall_mem_cons, and_assoc]

theorem failed_restrictAll_iff : Failed ((q.restrictAll fs).outcome row scope) ↔
    Failed (q.outcome row scope) ∨ ∃ f ∈ fs, Failed (f.holds row scope) := by
  induction fs generalizing q with
  | nil => simp
  | cons f rest ih => simp [ih, outcome_restrict, failed_both_iff, or_assoc]

theorem accepted_restrictAll : accepted ((q.restrictAll fs).outcome row scope) =
    (accepted (q.outcome row scope) && fs.all fun f => accepted (f.holds row scope)) := by
  rw [Bool.eq_iff_iff, accepted_iff, accepts_restrictAll_iff]
  simp [accepted_iff]

/-- Filters restrict nothing but the criteria. -/
theorem restrictAll_eq (q : Query) (fs : List Filter) :
    q.restrictAll fs = { q with criteria := (q.restrictAll fs).criteria } := by
  induction fs generalizing q with
  | nil => rfl
  | cons f rest ih =>
    rw [restrictAll_cons, ih]
    rfl

/-! ## Rows and answers -/

theorem filterRows_eq (q : Query) (rows : List Row) :
    q.filterRows rows = keepThat (fun row => q.outcome row q.entity) rows := by
  unfold filterRows outcome
  cases q.criteria with
  | none =>
    symm
    rw [keepThat_eq_ok_iff]
    simp [Failed, accepted]
  | some criteria => rfl

/-- Criteria that fail on no row keep the rows that they accept. -/
theorem filterRows_eq_ok_iff {rows kept : List Row} : q.filterRows rows = .ok kept ↔
    (∀ row ∈ rows, ¬ Failed (q.outcome row q.entity)) ∧
      kept = rows.filter fun row => accepted (q.outcome row q.entity) := by
  rw [filterRows_eq, keepThat_eq_ok_iff]

theorem filterRows_restrictAll_iff {rows kept : List Row} : (q.restrictAll fs).filterRows rows = .ok kept ↔
    (∀ row ∈ rows, ¬ Failed (q.outcome row q.entity) ∧ ∀ f ∈ fs, ¬ Failed (f.holds row q.entity)) ∧
      kept = rows.filter fun row =>
        accepted (q.outcome row q.entity) && fs.all fun f => accepted (f.holds row q.entity) := by
  have hentity : (q.restrictAll fs).entity = q.entity := by rw [restrictAll_eq]
  rw [filterRows_eq_ok_iff, hentity]
  simp only [failed_restrictAll_iff, accepted_restrictAll, not_or, not_exists, not_and]

/-- The rows that filters keep are the joined rows that all of them accept, when none of them fails on one. -/
theorem keptRows_restrictAll_iff {records : List Record} {kept : List Row} :
    (q.restrictAll fs).keptRows records = .ok kept ↔ q.entity.isEmpty = false ∧
      ∃ joined, q.joinedRows records = .ok joined ∧
        (∀ row ∈ joined, ¬ Failed (q.outcome row q.entity) ∧ ∀ f ∈ fs, ¬ Failed (f.holds row q.entity)) ∧
        kept = joined.filter fun row =>
          accepted (q.outcome row q.entity) && fs.all fun f => accepted (f.holds row q.entity) := by
  have hjoined : (q.restrictAll fs).joinedRows records = q.joinedRows records := by
    rw [restrictAll_eq]
    rfl
  have hentity : (q.restrictAll fs).entity = q.entity := by rw [restrictAll_eq]
  simp only [keptRows_eq_ok_iff, hjoined, hentity, filterRows_restrictAll_iff]

/-- Filters do not change what becomes of the rows that they keep. -/
theorem paginate_restrictAll (q : Query) (fs : List Filter) (rows : List Row) :
    (q.restrictAll fs).paginate ((q.restrictAll fs).present rows) = q.paginate (q.present rows) := by
  rw [restrictAll_eq]
  rfl

/-! ## The order of the filters -/

theorem failed_restrictAll_perm (h : fs.Perm gs) : Failed ((q.restrictAll fs).outcome row scope) ↔
    Failed ((q.restrictAll gs).outcome row scope) := by
  simp only [failed_restrictAll_iff, h.mem_iff]

theorem filterRows_restrictAll_perm (h : fs.Perm gs) {rows kept : List Row} :
    (q.restrictAll fs).filterRows rows = .ok kept ↔ (q.restrictAll gs).filterRows rows = .ok kept := by
  simp only [filterRows_restrictAll_iff, h.mem_iff, h.all_eq]

/-- **Adding filters is conjunction.** On every row, the criteria with the filters accept what the criteria without
them and each filter accept, and fail where one of these fails. So the rows that are kept are the joined rows that all
of them accept, in their order, provided that none of them fails on a joined row. An answer is the page of the kept
rows, and it is sure when the sort keys order them. The order in which the filters are added changes neither the rows
that are kept nor where the criteria fail. -/
theorem added_filters_conjoin (q : Query) (fs : List Filter) :
    (∀ calls : List (List FilterStep), q.build (calls.map .restrict) = q.restrictAll (calls.map Filter.ofSteps)) ∧
    (∀ row scope,
      ((q.restrictAll fs).outcome row scope = .ok true ↔
        q.outcome row scope = .ok true ∧ ∀ f ∈ fs, f.holds row scope = .ok true) ∧
      (Failed ((q.restrictAll fs).outcome row scope) ↔
        Failed (q.outcome row scope) ∨ ∃ f ∈ fs, Failed (f.holds row scope))) ∧
    (∀ records kept, (q.restrictAll fs).keptRows records = .ok kept ↔
      q.entity.isEmpty = false ∧ ∃ joined, q.joinedRows records = .ok joined ∧
        (∀ row ∈ joined, ¬ Failed (q.outcome row q.entity) ∧ ∀ f ∈ fs, ¬ Failed (f.holds row q.entity)) ∧
        kept = joined.filter fun row =>
          accepted (q.outcome row q.entity) && fs.all fun f => accepted (f.holds row q.entity)) ∧
    (∀ records page, (q.restrictAll fs).answer records = .ok page →
      ∃ kept, (q.restrictAll fs).keptRows records = .ok kept ∧ page = q.paginate (q.present kept)) ∧
    (∀ records kept, (q.restrictAll fs).keptRows records = .ok kept → SortKey.Orders q.sortKeys q.entity kept →
      (q.restrictAll fs).IsAnswer records (q.paginate (q.present kept))) ∧
    (∀ gs, fs.Perm gs →
      (∀ row scope, Failed ((q.restrictAll fs).outcome row scope) ↔ Failed ((q.restrictAll gs).outcome row scope)) ∧
      ∀ rows kept, (q.restrictAll fs).filterRows rows = .ok kept ↔ (q.restrictAll gs).filterRows rows = .ok kept) := by
  refine ⟨q.build_restrict, fun row scope => ⟨accepts_restrictAll_iff, failed_restrictAll_iff⟩,
    fun records kept => keptRows_restrictAll_iff, ?_, ?_, ?_⟩
  · intro records page hanswer
    obtain ⟨kept, hkept, rfl⟩ := exists_keptRows_of_answer hanswer
    exact ⟨kept, hkept, paginate_restrictAll q fs kept⟩
  · intro records kept hkept horders
    rw [isAnswer_iff hkept, paginate_restrictAll, restrictAll_eq]
    exact ⟨horders, rfl⟩
  · intro gs hperm
    exact ⟨fun row scope => failed_restrictAll_perm hperm, fun rows kept => filterRows_restrictAll_perm hperm⟩

/-- Two filters, of which one joins nothing by `or`, below a root that joins by `or`. -/
theorem added_filters_conjoin_swapped :
    let root : Filter :=
      { junction := .or
        conditions := [{ attributeName := "name", operator := .isNull },
          { attributeName := "city", operator := .notNull }] }
    let active : Filter := { conditions := [{ attributeName := "active", operator := .notNull }] }
    let nothing : Filter := { junction := .or }
    let row (names : List String) : Row :=
      .single "account" { logicalName := "account", attributes := .ofList (names.map fun name => (name, .bool true)) }
    let q : Query := { entity := "account", criteria := some root }
    let rows := [row ["active"], row ["active", "name"], row ["city"], row ["active", "city", "name"]]
    let kept := [row ["active"], row ["active", "city", "name"]]
    [active, nothing].Perm [nothing, active] ∧ (q.restrictAll [active, nothing]).filterRows rows = .ok kept ∧
      (q.restrictAll [nothing, active]).filterRows rows = .ok kept := by
  intro root active nothing row q rows kept
  have hperm : [active, nothing].Perm [nothing, active] := .swap _ _ _
  have hkept : (q.restrictAll [active, nothing]).filterRows rows = .ok kept := rfl
  obtain ⟨-, -, -, -, -, hperms⟩ := added_filters_conjoin q [active, nothing]
  exact ⟨hperm, hkept, ((hperms _ hperm).2 rows kept).mp hkept⟩

end Query

end EntityQuery
