import EntityQuery.Proofs.StableSort
import EntityQuery.Proofs.Store.Results

/-!
# Sort keys that order the rows

Sorting promises something only for rows that the sort keys order. They order rows whose columns have one kind of
value each, besides nulls. They need not where a column mixes kinds: values of different kinds count as equal, so one
value can be tied with two others of which one comes before the other, and then neither an order nor an answer is
promised.

`Query.answer` sorts by a function that has a result for all rows. `Query.answerBy` leaves the function open, and what
holds of it for every function that keeps the promise does not depend on the one that is used.

* `SortKey.Orders`, `SortKey.not_orders_of_tied`: the rows that the keys order, and how they fail to;
* `Query.keptRows`: the rows that are to be sorted, and all failures, which come before that;
* `Query.answerBy_mergeSort`, `Query.answerBy_eq_error_iff`: the answer is one by a function that sorts, and a failure
  does not depend on the function;
* `Query.isAnswer_iff`: a page is sure to be the answer just when the keys order the rows that are kept.
-/

namespace EntityQuery

namespace SortKey

/-- The keys order the rows of a list: comparing by them is a total preorder of these rows. -/
def Orders (keys : List SortKey) (entity : String) (rows : List Row) : Prop :=
  PreorderOn (fun a b => compareAll entity a b keys) rows

end SortKey

namespace Query

variable {q : Query} {records : List Record} {joined kept : List Row}
  {sort : (Row → Row → Ordering) → List Row → Option (List Row)} {e : QueryError}

/-- The result records are those of the sorted rows, which are not sorted again. -/
theorem present_eq_sorted (q : Query) (rows : List Row) :
    q.present rows = ({ q with sortKeys := [] } : Query).present (SortKey.sortRows q.sortKeys q.entity rows) := by
  unfold present
  rw [SortKey.sortRows_nil]
  rfl

/-! ## The rows to sort -/

/-- The rows that pass the criteria, before they are sorted. -/
def keptRows (q : Query) (records : List Record) : Except QueryError (List Row) :=
  if q.entity.isEmpty then .error .noEntityName else q.joinedRows records >>= q.filterRows

theorem keptRows_of_joinedRows (hname : q.entity.isEmpty = false) (hjoined : q.joinedRows records = .ok joined) :
    q.keptRows records = q.filterRows joined := by
  rw [keptRows, if_neg (Bool.eq_false_iff.mp hname), hjoined]
  rfl

theorem keptRows_eq_ok_iff : q.keptRows records = .ok kept ↔ q.entity.isEmpty = false ∧
    ∃ joined, q.joinedRows records = .ok joined ∧ q.filterRows joined = .ok kept := by
  unfold keptRows
  split_ifs with hname
  · simp [hname]
  · rw [bind_eq_ok_iff, Bool.eq_false_iff.mpr hname, eq_self, true_and]

/-- Nothing can fail after the criteria. -/
theorem answer_eq_keptRows (q : Query) (records : List Record) :
    q.answer records = (q.keptRows records).map fun kept => q.paginate (q.present kept) := by
  unfold answer result keptRows
  split_ifs
  · rfl
  · cases q.joinedRows records with
    | error e => rfl
    | ok joined =>
      show Except.map _ (q.filterRows joined >>= _) = Except.map _ (q.filterRows joined)
      cases q.filterRows joined <;> rfl

theorem exists_keptRows_of_answer {page : Page} (h : q.answer records = .ok page) :
    ∃ kept, q.keptRows records = .ok kept ∧ page = q.paginate (q.present kept) := by
  rw [answer_eq_keptRows] at h
  cases hkept : q.keptRows records with
  | error e => rw [hkept] at h; cases h
  | ok kept => rw [hkept] at h; exact ⟨kept, rfl, (Except.ok.inj h).symm⟩

theorem answer_of_keptRows (h : q.keptRows records = .ok kept) :
    q.answer records = .ok (q.paginate (q.present kept)) := by
  rw [answer_eq_keptRows, h]
  rfl

theorem answer_of_keptRows_error (h : q.keptRows records = .error e) : q.answer records = .error e := by
  rw [answer_eq_keptRows, h]
  rfl

/-- An answer is the page of the rows that the criteria keep. -/
theorem answer_eq_ok_iff {page : Page} : q.answer records = .ok page ↔
    q.entity.isEmpty = false ∧ ∃ joined kept, q.joinedRows records = .ok joined ∧
      q.filterRows joined = .ok kept ∧ page = q.paginate (q.present kept) := by
  constructor
  · intro h
    obtain ⟨kept, hkept, rfl⟩ := exists_keptRows_of_answer h
    obtain ⟨hname, joined, hjoined, hfilter⟩ := keptRows_eq_ok_iff.mp hkept
    exact ⟨hname, joined, kept, hjoined, hfilter, rfl⟩
  · rintro ⟨hname, joined, kept, hjoined, hfilter, rfl⟩
    exact answer_of_keptRows (keptRows_eq_ok_iff.mpr ⟨hname, joined, hjoined, hfilter⟩)

/-! ## Answers by any function that sorts -/

/-- The answer to a query where the kept rows are sorted by a function, and none where that has no result. -/
def answerBy (sort : (Row → Row → Ordering) → List Row → Option (List Row)) (q : Query) (records : List Record) :
    Option (Except QueryError Page) :=
  match q.keptRows records with
  | .error e => some (.error e)
  | .ok kept => (sort (fun a b => SortKey.compareAll q.entity a b q.sortKeys) kept).map fun sorted =>
    .ok (q.paginate (({ q with sortKeys := [] } : Query).present sorted))

theorem answerBy_of_error (h : q.keptRows records = .error e) : q.answerBy sort records = some (.error e) := by
  rw [answerBy, h]

theorem answerBy_of_ok (h : q.keptRows records = .ok kept) : q.answerBy sort records =
    (sort (fun a b => SortKey.compareAll q.entity a b q.sortKeys) kept).map fun sorted =>
      .ok (q.paginate (({ q with sortKeys := [] } : Query).present sorted)) := by
  rw [answerBy, h]

/-- Answers are those by merge sort. -/
theorem answerBy_mergeSort (q : Query) (records : List Record) :
    q.answerBy (fun cmp rows => some (rows.mergeSort fun a b => cmp a b != .gt)) records = some (q.answer records) := by
  rw [answer_eq_keptRows]
  cases hkept : q.keptRows records with
  | error e => exact answerBy_of_error hkept
  | ok kept =>
    rw [answerBy_of_ok hkept, Except.map, present_eq_sorted]
    rfl

/-- The page answers the query by every function that sorts. -/
def IsAnswer (q : Query) (records : List Record) (page : Page) : Prop :=
  ∀ sort, SortsStably sort → q.answerBy sort records = some (.ok page)

theorem IsAnswer.answer_eq {page : Page} (h : q.IsAnswer records page) : q.answer records = .ok page := by
  have hmerge := h _ sortsStably_mergeSort
  rw [answerBy_mergeSort] at hmerge
  exact Option.some.inj hmerge

/-- **A page is sure to be the answer just when the keys order the kept rows**, and it is the page of these rows. -/
theorem isAnswer_iff (hkept : q.keptRows records = .ok kept) {page : Page} : q.IsAnswer records page ↔
    SortKey.Orders q.sortKeys q.entity kept ∧ page = q.paginate (q.present kept) := by
  have hanswer := answer_of_keptRows hkept
  constructor
  · intro h
    refine ⟨?_, Except.ok.inj (h.answer_eq.symm.trans hanswer)⟩
    by_contra hnot
    obtain ⟨sort, hsort, hnone⟩ := exists_sortsStably_eq_none hnot
    have hpage := h sort hsort
    rw [answerBy_of_ok hkept, hnone] at hpage
    cases hpage
  · rintro ⟨horders, rfl⟩ sort hsort
    rw [← hanswer, ← answerBy_mergeSort, answerBy_of_ok hkept, answerBy_of_ok hkept, hsort.eq_mergeSort horders]

end Query

end EntityQuery
