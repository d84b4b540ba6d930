import EntityQuery.Proofs.Record.Distinct
import EntityQuery.Proofs.Retrieval.StorePages

/-!
# Distinct records over the pages of a scan

Repetitions are taken out of the projected records before the result is cut at a cap or into pages. So a cap counts
distinct records, and no record comes up on two pages of a scan.

* `Query.result_of_distinct`: the distinct result is made of the result with its repetitions;
* `distinct_keeps_each_once`: what a query for distinct records gets, as a whole, page by page and under a cap.
-/

namespace EntityQuery

namespace Query

/-- The whole result of the query with the repetitions in it. -/
def repeating (q : Query) : Query := { q.unpaged with distinct := false }

theorem result_of_distinct {q : Query} (h : q.distinct = true) (records : List Record) :
    q.unpaged.result records = (q.repeating.result records).map Record.distinct := by
  refine result_eq_map rfl rfl rfl fun rows => ?_
  show (if q.distinct then _ else _) = _
  rw [if_pos h]
  rfl

end Query

/-- The pages of a scan from the first one on hold the result. -/
theorem retrieve_recorded_first_page {α : Type} (convert : Record → Except QueryError α) {q : Query} {s : Store}
    {size : UInt32} {full : List Record} (hn : 0 < size.toNat) (htop : q.top = none)
    (hsize : q.paging.pageSize = some size) (hp : q.paging.pageNumber = 1) (hres : q.result s.records = .ok full)
    (hfits : full.length ≤ (2 ^ 32 - 1) * size.toNat) :
    ∃ log s', retrieve convert .all Store.backend.recorded q (s, []) = (convertAll convert full, q, s', log) ∧
      log.flatMap Exchange.records = full := by
  have hpage : q.paging.pageNumber.toNat = 1 := congrArg UInt32.toNat hp
  have hscan : (scan Store.backend q s).1 = .ok full := by
    have hrecords := (scan_store_pages hn htop hsize (by omega) hres hfits).1
    rwa [hpage, Nat.sub_self, Nat.zero_mul, List.drop_zero] at hrecords
  obtain ⟨log, hrun, -, hrecorded⟩ := scan_recorded Store.backend q s []
  rw [hscan] at hrun
  refine ⟨log, (scan Store.backend q s).2.2, ?_, hrun.flatMap_records⟩
  rw [retrieve_all_eq (Query.isEmpty_of_result hres), hrecorded, hscan]
  rfl

/-- Two pages have no record in common when the records of all pages are distinct. -/
theorem pairwise_of_flatMap_records {log : List Exchange} {records : List Record}
    (h : log.flatMap Exchange.records = Record.distinct records) :
    log.Pairwise fun x y => ∀ r ∈ x.records, ∀ t ∈ y.records, r.same t = false := by
  have hall := Record.pairwise_distinct records
  rw [← h, List.pairwise_flatMap] at hall
  exact hall.2

/-- **A query for distinct records gets each record once.** `full.records` is its whole result with the repetitions, and
`d.records` the whole result. No two of the latter are the same, each of the former is the same as just one of them, and
they are the first occurrences in the former. A scan of pages of a size from the first one on gets just these, none on
two pages, and a cap leaves the first of these. -/
theorem distinct_keeps_each_once {α : Type} (convert : Record → Except QueryError α) {q : Query} {s : Store}
    {full : Page} (hdistinct : q.distinct = true) (h : (Store.backend q.repeating s).1 = .ok full) :
    ∃ d, (Store.backend q.unpaged s).1 = .ok d ∧
      d.records.Pairwise (fun r t => r.same t = false) ∧
      (∀ r ∈ full.records, ∃! i : Nat, ∃ t, d.records[i]? = some t ∧ r.same t = true) ∧
      d.records = Record.firsts full.records ∧ d.records.Sublist full.records ∧
      (∀ size : UInt32, q.top = none → q.paging.pageSize = some size → 0 < size.toNat → q.paging.pageNumber = 1 →
        d.records.length ≤ (2 ^ 32 - 1) * size.toNat →
        ∃ log s', retrieve convert .all Store.backend.recorded q (s, []) = (convertAll convert d.records, q, s', log) ∧
          log.flatMap Exchange.records = d.records ∧
          (log.Pairwise fun x y => ∀ r ∈ x.records, ∀ t ∈ y.records, r.same t = false) ∧
          ∀ r ∈ full.records, ∃ x ∈ log, ∃ t ∈ x.records, r.same t = true) ∧
      ∀ top : UInt32, q.top = some top → ∃ page, (Store.backend q s).1 = .ok page ∧
        page.records = d.records.take (min top.toNat d.records.length) := by
  have hfull : q.repeating.result s.records = .ok full.records := Query.result_of_unpaged_answer (q := q.repeating) h
  have hwhole : q.unpaged.result s.records = .ok (Record.distinct full.records) := by
    rw [Query.result_of_distinct hdistinct, hfull]
    rfl
  have hres : q.result s.records = .ok (q.capped (Record.distinct full.records)) := by
    rw [Query.result_eq_capped, hwhole]
    rfl
  refine ⟨_, Query.answer_eq hwhole, Record.pairwise_distinct _, fun r => Record.existsUnique_same,
    Record.distinct_eq_firsts _, ?_, ?_, ?_⟩
  · show (Record.distinct full.records).Sublist full.records
    rw [Record.distinct_eq_firsts]
    exact Record.firsts_sublist _
  · intro size htop hsize hn hp hfits
    have hpaged : q.result s.records = .ok (Record.distinct full.records) := by
      rw [hres, Query.capped, htop]
    obtain ⟨log, s', hretrieve, hrecords⟩ := retrieve_recorded_first_page convert hn htop hsize hp hpaged hfits
    refine ⟨log, s', hretrieve, hrecords, pairwise_of_flatMap_records hrecords, fun r hr => ?_⟩
    obtain ⟨t, ht, hsame⟩ := Record.exists_same_of_mem [] hr
    rw [List.nil_append, ← Record.distinct, ← hrecords] at ht
    obtain ⟨x, hx, ht⟩ := List.mem_flatMap.mp ht
    exact ⟨x, hx, t, ht, hsame⟩
  · intro top htop
    rw [Query.capped, htop] at hres
    refine ⟨_, Query.answer_eq hres, ?_⟩
    rw [Query.paginate, htop]
    exact List.take_eq_take_min

/-- Three accounts, two of which are the same but for the sign of a zero, in pages of one, and under a cap of one. -/
theorem distinct_keeps_each_once_zeros :
    let account (balance : Binary64) : Record :=
      { logicalName := "account", attributes := .ofList [("balance", .number (.float balance))] }
    let plus := account .zero
    let minus := account (.signedZero true)
    let other : Record := { logicalName := "account" }
    let s : Store := { records := [plus, minus, other] }
    let q : Query := { entity := "account", columns := .all, paging := { pageSize := some 1 }, distinct := true }
    let capped : Query := { q with top := some 1 }
    (Store.backend q.repeating s).1 = .ok { records := [plus, minus, other] } ∧
      (∃ log s', retrieve .ok .all Store.backend.recorded q (s, []) = (.ok [plus, other], q, s', log) ∧
        log.flatMap Exchange.records = [plus, other]) ∧
      ∃ page, (Store.backend capped s).1 = .ok page ∧ page.records = [plus] := by
  intro account plus minus other s q capped
  have hrepeating : q.repeating = { entity := "account", columns := .all } := rfl
  have hresult : q.repeating.result s.records = .ok [plus, minus, other] := by
    rw [hrepeating, Query.result_of_entity rfl]
    rfl
  have hanswer : (Store.backend q.repeating s).1 = .ok { records := [plus, minus, other] } :=
    Query.answer_eq hresult
  have hfirsts : Record.firsts [plus, minus, other] = [plus, other] := rfl
  refine ⟨hanswer, ?_, ?_⟩
  · obtain ⟨d, -, -, -, hd, -, hpages, -⟩ := distinct_keeps_each_once .ok rfl hanswer
    rw [hfirsts] at hd
    have hfits : d.records.length ≤ (2 ^ 32 - 1) * (1 : UInt32).toNat := by
      rw [hd]
      decide
    obtain ⟨log, s', hretrieve, hrecords, -, -⟩ := hpages 1 rfl rfl (by decide) rfl hfits
    rw [hd] at hretrieve hrecords
    exact ⟨log, s', hretrieve, hrecords⟩
  · obtain ⟨d, -, -, -, hd, -, -, htop⟩ := distinct_keeps_each_once (q := capped) .ok rfl hanswer
    rw [hfirsts] at hd
    obtain ⟨page, hpage, hrecords⟩ := htop 1 rfl
    rw [hd] at hrecords
    exact ⟨page, hpage, hrecords⟩

end EntityQuery
