import EntityQuery.Proofs.Store.Visits

/-!
# From joined rows to the records of a page

What comes after the joins only selects and orders: every record of a page is the projection of a joined row.

* `Query.mem_result`, `Query.mem_answer`: the records of a result and of a page;
* `Query.result_of_joinedRows`: a query that neither selects nor orders has one record for each joined row;
* `Query.result_eq_map`: queries that keep the same rows.
-/

namespace EntityQuery

/-- Without sort keys the rows keep their order. -/
theorem SortKey.sortRows_nil (entity : String) (rows : List Row) : SortKey.sortRows [] entity rows = rows :=
  List.mergeSort_of_pairwise (List.pairwise_of_forall fun _ _ => rfl)

theorem Record.mem_of_mem_distinctAfter {r : Record} {seen records : List Record}
    (h : r ∈ distinctAfter seen records) : r ∈ records := by
  induction records generalizing seen with
  | nil => exact h
  | cons s rest ih =>
    unfold distinctAfter at h
    split_ifs at h
    · exact List.mem_cons_of_mem s (ih h)
    · rcases List.mem_cons.mp h with rfl | h
      · exact List.mem_cons_self
      · exact List.mem_cons_of_mem s (ih h)

theorem Record.mem_of_mem_distinctIf {r : Record} {unique : Bool} {records : List Record}
    (h : r ∈ if unique then Record.distinct records else records) : r ∈ records := by
  split_ifs at h
  · exact Record.mem_of_mem_distinctAfter h
  · exact h

namespace Query

variable {q : Query} {records : List Record}

theorem mem_present {rows : List Row} {r : Record} (h : r ∈ q.present rows) : ∃ row ∈ rows, r = q.project row := by
  have hsorted : r ∈ (SortKey.sortRows q.sortKeys q.entity rows).map q.project := by
    unfold present at h
    cases htop : q.top with
    | none =>
      rw [htop] at h
      exact Record.mem_of_mem_distinctIf h
    | some top =>
      rw [htop] at h
      exact Record.mem_of_mem_distinctIf (List.mem_of_mem_take h)
  obtain ⟨row, hrow, rfl⟩ := List.mem_map.mp hsorted
  exact ⟨row, List.mem_mergeSort.mp hrow, rfl⟩

/-- The criteria only leave rows out. -/
theorem mem_of_mem_filterRows {joined rows : List Row} {row : Row} (h : q.filterRows joined = .ok rows)
    (hrow : row ∈ rows) : row ∈ joined := by
  unfold filterRows at h
  cases hcriteria : q.criteria with
  | none =>
    rw [hcriteria] at h
    cases h
    exact hrow
  | some f =>
    rw [hcriteria] at h
    rw [keepThat_eq h] at hrow
    exact (List.mem_filter.mp hrow).1

/-- The records of a result are projections of joined rows. -/
theorem mem_result {full : List Record} (h : q.result records = .ok full) :
    ∃ joined, q.joinedRows records = .ok joined ∧ ∀ r ∈ full, ∃ row ∈ joined, r = q.project row := by
  unfold result at h
  split_ifs at h
  obtain ⟨joined, hjoined, h⟩ := bind_eq_ok_iff.mp h
  obtain ⟨rows, hrows, h⟩ := bind_eq_ok_iff.mp h
  cases h
  refine ⟨joined, hjoined, fun r hr => ?_⟩
  obtain ⟨row, hrow, rfl⟩ := mem_present hr
  exact ⟨row, mem_of_mem_filterRows hrows hrow, rfl⟩

theorem mem_paginate {full : List Record} {r : Record} (h : r ∈ (q.paginate full).records) : r ∈ full := by
  unfold paginate at h
  split at h
  · exact List.mem_of_mem_take (List.mem_of_mem_drop h)
  · exact h

/-- An answer is a page of the result. -/
theorem exists_result_of_answer {page : Page} (h : q.answer records = .ok page) :
    ∃ full, q.result records = .ok full ∧ page = q.paginate full := by
  unfold answer at h
  cases hres : q.result records with
  | error e => rw [hres] at h; cases h
  | ok full =>
    rw [hres] at h
    cases h
    exact ⟨full, rfl, rfl⟩

/-- The records of a page are projections of joined rows. -/
theorem mem_answer {page : Page} (h : q.answer records = .ok page) :
    ∃ joined, q.joinedRows records = .ok joined ∧ ∀ r ∈ page.records, ∃ row ∈ joined, r = q.project row := by
  obtain ⟨full, hresult, rfl⟩ := exists_result_of_answer h
  obtain ⟨joined, hjoined, hfull⟩ := mem_result hresult
  exact ⟨joined, hjoined, fun r hr => hfull r (mem_paginate hr)⟩

theorem answer_eq {full : List Record} (h : q.result records = .ok full) :
    q.answer records = .ok (q.paginate full) := by
  rw [answer, h]
  rfl

theorem isEmpty_of_result {full : List Record} (h : q.result records = .ok full) : q.entity.isEmpty = false := by
  rw [result] at h
  split_ifs at h with hname
  exact Bool.eq_false_iff.mpr hname

theorem answer_of_isEmpty (h : q.entity.isEmpty = true) : q.answer records = .error .noEntityName := by
  rw [answer, result, if_pos h]
  rfl

/-- Two queries that keep the same rows differ in their results as they do in presenting them. -/
theorem result_eq_map {q' : Query} {f : List Record → List Record} (hentity : q'.entity = q.entity)
    (hlinks : q'.links = q.links) (hcriteria : q'.criteria = q.criteria)
    (hpresent : ∀ rows, q.present rows = f (q'.present rows)) : q.result records = (q'.result records).map f := by
  have hfilter : q'.filterRows = q.filterRows := by
    funext rows
    rw [filterRows, filterRows, hcriteria, hentity]
  have hjoined : q'.joinedRows records = q.joinedRows records := by
    rw [joinedRows, joinedRows, rootRows, rootRows, hentity, hlinks]
  rw [result, result, hentity, hjoined, hfilter]
  split_ifs
  · rfl
  · cases q.joinedRows records with
    | error e => rfl
    | ok joined =>
      show (q.filterRows joined >>= fun rows => pure (q.present rows)) =
        (q.filterRows joined >>= fun rows => pure (q'.present rows)).map f
      cases q.filterRows joined with
      | error e => rfl
      | ok rows => exact congrArg Except.ok (hpresent rows)

/-- A query that only selects projects the rows that it keeps, in their order. -/
theorem present_eq_map (hkeys : q.sortKeys = []) (hdistinct : q.distinct = false) (htop : q.top = none)
    (rows : List Row) : q.present rows = rows.map q.project := by
  rw [present, hkeys, SortKey.sortRows_nil, hdistinct, htop]
  rfl

theorem paginate_eq_whole (hsize : q.paging.pageSize = none) (records : List Record) :
    q.paginate records = q.paging.whole records := by
  unfold paginate
  rw [hsize]
  cases q.top <;> rfl

/-- The result of a query that neither selects nor orders the joined rows. -/
theorem result_of_joinedRows {joined : List Row} (hname : q.entity.isEmpty = false)
    (hjoined : q.joinedRows records = .ok joined) (hcriteria : q.criteria = none) (hkeys : q.sortKeys = [])
    (hdistinct : q.distinct = false) (htop : q.top = none) : q.result records = .ok (joined.map q.project) := by
  rw [result, hname, hjoined, if_neg Bool.false_ne_true]
  show q.filterRows joined >>= _ = _
  rw [filterRows, hcriteria, ← present_eq_map hkeys hdistinct htop]
  rfl

end Query

/-- A page ends where as many pages end as its number says, page zero being the first. -/
theorem Paging.start_add_size (p : Paging) (size : UInt32) :
    p.start size + size.toNat = p.effectiveNumber * size.toNat := by
  have hpos : 0 < p.effectiveNumber := Nat.le_max_right _ _
  obtain ⟨m, hm⟩ := Nat.exists_eq_add_of_lt hpos
  rw [start, hm, Nat.zero_add, Nat.add_sub_cancel, Nat.succ_mul]

end EntityQuery
