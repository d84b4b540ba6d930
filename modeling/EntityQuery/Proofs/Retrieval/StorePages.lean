import EntityQuery.Proofs.Retrieval.Protocol
import EntityQuery.Proofs.Store.Results

/-!
# The pages of a result in a store

A store answers each request from its records, which no request changes, and the result of a query does not
depend on its page number or cookie. So the pages that a scan joins are cut out of one list: the page with
number `m` of size `n` is the part from `(m - 1) * n` on, and it promises another just when `m * n` records
are not all of them.

* `result_eq_capped`: the result is that of the query without a cap, cut at the cap;
* `pageCount`, `lt_pageCount`: how many pages a result has;
* `scan_store_pages`, `scan_store_exhausted`: a scan that meets the end of the result, and one that does not;
* `paging_partitions_result`: the records, requests and totals of a retrieval from a store.
-/

namespace EntityQuery

/-! ## Results -/

namespace Query

/-- The query without a cap and without a page size. -/
def unpaged (q : Query) : Query := { q with top := none, paging := { q.paging with pageSize := none } }

def capped (q : Query) (records : List Record) : List Record :=
  match q.top with
  | none => records
  | some top => records.take top.toNat

theorem result_eq_capped (q : Query) (records : List Record) :
    q.result records = (q.unpaged.result records).map q.capped := by
  refine result_eq_map rfl rfl rfl fun rows => ?_
  rw [present, capped]
  cases q.top <;> rfl

/-- The one page of the query without paging holds its whole result. -/
theorem result_of_unpaged_answer {q : Query} {records : List Record} {page : Page}
    (h : q.unpaged.answer records = .ok page) : q.result records = .ok (q.capped page.records) := by
  obtain ⟨full, hres, rfl⟩ := exists_result_of_answer h
  rw [result_eq_capped, hres]
  rfl

theorem result_atPage (q : Query) (n : Nat) (cookie : Option String) (records : List Record) :
    (q.atPage n cookie).result records = q.result records := rfl

/-- The result of a query for all records of an entity. -/
theorem result_of_entity {entity : String} (hname : entity.isEmpty = false) (columns : Columns) (paging : Paging)
    (records : List Record) : ({ entity, columns, paging } : Query).result records =
      .ok ((({ entity, columns, paging } : Query).rootRows records).map
        ({ entity, columns, paging } : Query).project) :=
  result_of_joinedRows hname rfl rfl rfl rfl rfl

end Query

/-! ## Pages -/

/-- The number of pages of a size that a number of records takes. -/
def pageCount (total size : Nat) : Nat := (total + size - 1) / size

theorem lt_pageCount {total size : Nat} (hsize : 0 < size) (number : Nat) :
    number < pageCount total size ↔ number * size < total := by
  rw [pageCount, ← Nat.succ_le_iff, Nat.le_div_iff_mul_le hsize, Nat.succ_mul]
  omega

namespace Paging

variable {p : Paging} {size : UInt32} {full : List Record}

theorem start_eq (hp : 0 < p.pageNumber.toNat) (size : UInt32) :
    p.start size = (p.pageNumber.toNat - 1) * size.toNat := by
  rw [start, effectiveNumber, Nat.max_eq_left hp]

theorem start_add (hp : 0 < p.pageNumber.toNat) (size : UInt32) :
    p.start size + size.toNat = p.pageNumber.toNat * size.toNat := by
  rw [start_add_size, effectiveNumber, Nat.max_eq_left hp]

/-- A page promises another when the pages up to it do not hold all records, page zero being the first. -/
theorem more_cut : (p.cut size full).more = true ↔ p.effectiveNumber * size.toNat < full.length := by
  show decide (min (p.start size + size.toNat) full.length < full.length) = true ↔ _
  rw [decide_eq_true_iff, start_add_size]
  omega

theorem cut_more (hp : 0 < p.pageNumber.toNat) :
    (p.cut size full).more = true ↔ p.pageNumber.toNat * size.toNat < full.length := by
  rw [more_cut, effectiveNumber, Nat.max_eq_left hp]

/-- A page that promises another, and the records after it. -/
theorem cut_records_append (hp : 0 < p.pageNumber.toNat)
    (hmore : p.pageNumber.toNat * size.toNat < full.length) :
    (p.cut size full).records ++ full.drop (p.pageNumber.toNat * size.toNat) =
      full.drop ((p.pageNumber.toNat - 1) * size.toNat) := by
  have hstart : p.start size ≤ (full.take (p.pageNumber.toNat * size.toNat)).length := by
    rw [List.length_take, ← start_add hp]
    rw [← start_add hp] at hmore
    omega
  have hrecords : (p.cut size full).records =
      (full.take (p.pageNumber.toNat * size.toNat)).drop (p.start size) := by
    show (full.take (min (p.start size + size.toNat) full.length)).drop (p.start size) = _
    rw [start_add hp, Nat.min_eq_left hmore.le]
  rw [hrecords, ← List.drop_append_of_le_length hstart, List.take_append_drop, start_eq hp]

theorem cut_records_last (hp : 0 < p.pageNumber.toNat)
    (hlast : full.length ≤ p.pageNumber.toNat * size.toNat) :
    (p.cut size full).records = full.drop ((p.pageNumber.toNat - 1) * size.toNat) := by
  show (full.take (min (p.start size + size.toNat) full.length)).drop (p.start size) = _
  rw [start_add hp, Nat.min_eq_right hlast, List.take_length, start_eq hp]

end Paging

/-! ## Scans -/

section Scans

variable {q : Query} {s : Store} {size : UInt32} {full : List Record}

theorem backend_eq (hres : q.result s.records = .ok full) :
    Store.backend q s = (.ok (q.paginate full), ⟨s.records, s.executions + 1⟩) := by
  rw [Store.backend, Query.answer_eq hres]

theorem backend_cut (htop : q.top = none) (hsize : q.paging.pageSize = some size)
    (hres : q.result s.records = .ok full) :
    Store.backend q s = (.ok (q.paging.cut size full), { s with executions := s.executions + 1 }) := by
  rw [backend_eq hres, Query.paginate, htop, hsize]

/-- A scan with numbers enough for its pages gives the records from its first page on, each page by one
request; a first page after the end is asked for all the same. -/
theorem scan_store_pages (hn : 0 < size.toNat) (htop : q.top = none) (hsize : q.paging.pageSize = some size)
    (hp : 0 < q.paging.pageNumber.toNat) (hres : q.result s.records = .ok full)
    (hfits : full.length ≤ (2 ^ 32 - 1) * size.toNat) :
    (scan Store.backend q s).1 = .ok (full.drop ((q.paging.pageNumber.toNat - 1) * size.toNat)) ∧
      (scan Store.backend q s).2.2 =
        ⟨s.records,
          s.executions + max 1 (pageCount full.length size.toNat + 1 - q.paging.pageNumber.toNat)⟩ := by
  induction q, s using scan.induct Store.backend with
  | case1 q s e s' h =>
    rw [backend_cut htop hsize hres] at h
    cases h
  | case2 q s page s' h hmore hlimit _ _ _ _ ih =>
    rw [scan_of_more h hmore hlimit]
    rw [backend_cut htop hsize hres] at h
    cases h
    have hrest : q.paging.pageNumber.toNat * size.toNat < full.length := (Paging.cut_more hp).mp hmore
    have hcount := (lt_pageCount hn _).mpr hrest
    have hnext := Query.toNat_nextPage hlimit (q.paging.cut size full).cookie
    obtain ⟨hrecords, hstore⟩ := ih htop hsize (by omega) hres
    rw [hnext] at hrecords hstore
    constructor
    · show Except.map _ (scan _ _ _).1 = _
      rw [hrecords, ← Paging.cut_records_append hp hrest]
      rfl
    · show (scan _ _ _).2.2 = _
      rw [hstore, Store.mk.injEq]
      exact ⟨rfl, by dsimp only; omega⟩
  | case3 q s page s' h hmore hlimit =>
    rw [backend_cut htop hsize hres] at h
    cases h
    have hrest := (Paging.cut_more hp).mp hmore
    have hnumber : q.paging.pageNumber.toNat = 2 ^ 32 - 1 := by
      have := q.paging.pageNumber.toNat_lt
      omega
    rw [hnumber] at hrest
    exact absurd hrest (Nat.not_lt.mpr hfits)
  | case4 q s page s' h hmore =>
    rw [scan_of_last h (by simpa using hmore)]
    rw [backend_cut htop hsize hres] at h
    cases h
    have hlast : full.length ≤ q.paging.pageNumber.toNat * size.toNat :=
      Nat.not_lt.mp fun hrest => hmore ((Paging.cut_more hp).mpr hrest)
    have hcount : pageCount full.length size.toNat ≤ q.paging.pageNumber.toNat :=
      Nat.not_lt.mp fun hlt => absurd ((lt_pageCount hn _).mp hlt) (Nat.not_lt.mpr hlast)
    refine ⟨congrArg Except.ok (Paging.cut_records_last hp hlast), ?_⟩
    rw [Store.mk.injEq]
    exact ⟨rfl, by omega⟩

/-- A scan that runs out of numbers before it has all records fails. -/
theorem scan_store_exhausted (htop : q.top = none) (hsize : q.paging.pageSize = some size)
    (hp : 0 < q.paging.pageNumber.toNat) (hres : q.result s.records = .ok full)
    (hlong : (2 ^ 32 - 1) * size.toNat < full.length) :
    (scan Store.backend q s).1 = .error .pagesExhausted := by
  -- the pages up to any number do not hold all records
  have hall (m : UInt32) : m.toNat * size.toNat < full.length := by
    have hm : m.toNat ≤ 2 ^ 32 - 1 := Nat.le_sub_one_of_lt m.toNat_lt
    exact lt_of_le_of_lt (Nat.mul_le_mul_right _ hm) hlong
  induction q, s using scan.induct Store.backend with
  | case1 q s e s' h =>
    rw [backend_cut htop hsize hres] at h
    cases h
  | case2 q s page s' h hmore hlimit _ _ _ _ ih =>
    rw [scan_of_more h hmore hlimit]
    rw [backend_cut htop hsize hres] at h
    cases h
    have hnext := Query.toNat_nextPage hlimit (q.paging.cut size full).cookie
    show Except.map _ (scan _ _ _).1 = _
    rw [ih htop hsize (by omega) hres]
    rfl
  | case3 q s page s' h hmore hlimit => rw [scan_of_exhausted h hmore hlimit]
  | case4 q s page s' h hmore =>
    rw [backend_cut htop hsize hres] at h
    cases h
    exact absurd ((Paging.cut_more hp).mpr (hall _)) hmore

theorem scan_store_capped {top : UInt32} (htop : q.top = some top) (hres : q.result s.records = .ok full) :
    scan Store.backend q s = (.ok full, q, ⟨s.records, s.executions + 1⟩) := by
  have h : Store.backend q s = (.ok (q.paging.whole full), ⟨s.records, s.executions + 1⟩) := by
    rw [backend_eq hres, Query.paginate, htop]
  rw [scan_of_last h rfl]
  rfl

theorem answer_of_replies {s' : Store} {log : List Exchange} (h : Store.backend.Replies s log s') :
    ∀ x ∈ log, x.answer = x.request.answer s.records := by
  induction log generalizing s with
  | nil => exact fun x hx => absurd hx List.not_mem_nil
  | cons y log ih =>
    obtain ⟨t, hy, hrest⟩ := h
    obtain ⟨hanswer, rfl⟩ := Prod.mk.inj hy
    intro x hx
    rcases List.mem_cons.mp hx with rfl | hx
    · exact hanswer.symm
    · exact ih hrest x hx

/-- Every page that is asked for in a scan reports the length of the whole result, if it is wanted. -/
theorem total_of_run {s' : Store} {log : List Exchange} {result : Except QueryError (List Record)}
    (hrun : ScanRun q log result) (hreplies : Store.backend.Replies s log s')
    (htotal : q.paging.wantsTotal = true) (hres : q.result s.records = .ok full) :
    ∀ x ∈ log, ∃ page, x.answer = .ok page ∧ page.total = some full.length := by
  intro x hx
  obtain ⟨i, hi⟩ := List.mem_iff_getElem?.mp hx
  have hrequest := hrun.request_eq i x hi
  have hpage : x.request.result s.records = .ok full := by
    rw [hrequest, Query.result_atPage, hres]
  have hwanted : x.request.paging.wantsTotal = true := by
    rw [hrequest]
    exact htotal
  refine ⟨_, (answer_of_replies hreplies x hx).trans (Query.answer_eq hpage), ?_⟩
  rw [Query.paginate]
  split
  · exact if_pos hwanted
  · exact if_pos hwanted

end Scans

/-! ## Retrievals -/

section Retrieving

variable {α : Type}

/-- **Paging partitions the result.** `page.records` is the whole result. With a page size, a retrieval of all
pages gives the records from the start of its first page on, in as many requests as there are pages from it on
and in one at least, and each page reports the whole length if the total is wanted; a result that has records
beyond the page with the greatest number is a failure. With a cap it gives the first records in one request. -/
theorem paging_partitions_result (convert : Record → Except QueryError α) (q : Query) (s : Store) {page : Page}
    (h : (Store.backend q.unpaged s).1 = .ok page) :
    (∀ size : UInt32, q.top = none → q.paging.pageSize = some size → 0 < size.toNat →
      0 < q.paging.pageNumber.toNat →
      (page.records.length ≤ (2 ^ 32 - 1) * size.toNat →
        retrieve convert .all Store.backend q s =
          (convertAll convert (page.records.drop ((q.paging.pageNumber.toNat - 1) * size.toNat)), q,
            ⟨s.records, s.executions +
              max 1 (pageCount page.records.length size.toNat + 1 - q.paging.pageNumber.toNat)⟩) ∧
        (q.paging.wantsTotal = true →
          ∀ x ∈ (retrieve convert .all Store.backend.recorded q (s, [])).2.2.2,
            ∃ part, x.answer = .ok part ∧ part.total = some page.records.length)) ∧
      ((2 ^ 32 - 1) * size.toNat < page.records.length →
        (retrieve convert .all Store.backend q s).1 = .error .pagesExhausted)) ∧
    (∀ top : UInt32, q.top = some top → retrieve convert .all Store.backend q s =
      (convertAll convert (page.records.take (min top.toNat page.records.length)), q,
        ⟨s.records, s.executions + 1⟩)) := by
  have hres : q.result s.records = .ok (q.capped page.records) := Query.result_of_unpaged_answer h
  have hname := Query.isEmpty_of_result hres
  rw [Query.capped] at hres
  constructor
  · intro size htop hsize hn hp
    rw [htop] at hres
    constructor
    · intro hfits
      obtain ⟨hrecords, hstore⟩ := scan_store_pages hn htop hsize hp hres hfits
      constructor
      · rw [retrieve_all_eq hname, hrecords, hstore]
        rfl
      · intro htotal
        obtain ⟨log, hrun, hreplies, hrecorded⟩ := scan_recorded Store.backend q s []
        rw [retrieve_all_eq hname, hrecorded, List.nil_append]
        exact total_of_run hrun hreplies htotal hres
    · intro hlong
      rw [retrieve_all_eq hname, scan_store_exhausted htop hsize hp hres hlong]
      rfl
  · intro top htop
    rw [htop] at hres
    rw [retrieve_all_eq hname, scan_store_capped htop hres, ← List.take_eq_take_min]
    rfl

/-- The second page of three accounts in pages of two, and the first two of them under a cap. -/
theorem paging_partitions_result_accounts :
    let account (name : String) : Record :=
      { logicalName := "account", attributes := .ofList [("name", .string name)] }
    let s : Store := { records := [account "a", account "b", { logicalName := "contact" }, account "c"] }
    let full := [account "a", account "b", account "c"]
    let paging : Paging := { pageSize := some 2, pageNumber := 2, wantsTotal := true }
    let paged : Query := { entity := "account", columns := .all, paging }
    let capped : Query := { paged with top := some 2 }
    (Store.backend paged.unpaged s).1 = .ok { records := full, total := some 3 } ∧
      full.length ≤ (2 ^ 32 - 1) * 2 ∧
      retrieve .ok .all Store.backend paged s = (.ok [account "c"], paged, ⟨s.records, 1⟩) ∧
      (Store.backend capped.unpaged s).1 = .ok { records := full, total := some 3 } ∧
      retrieve .ok .all Store.backend capped s = (.ok [account "a", account "b"], capped, ⟨s.records, 1⟩) := by
  intro account s full paging paged capped
  have hunpaged : paged.unpaged =
      { entity := "account", columns := .all, paging := { pageNumber := 2, wantsTotal := true } } := rfl
  have hresult : paged.unpaged.result s.records = .ok full := by
    rw [hunpaged, Query.result_of_entity rfl]
    rfl
  have hanswer : (Store.backend paged.unpaged s).1 = .ok { records := full, total := some 3 } :=
    Query.answer_eq hresult
  have hfits : full.length ≤ (2 ^ 32 - 1) * 2 := by decide
  refine ⟨hanswer, hfits, ?_, hanswer, ?_⟩
  · have hpaged := (paging_partitions_result .ok paged s hanswer).1 2 rfl rfl (by decide) (by decide)
    have hrecords : convertAll Except.ok (full.drop ((2 - 1) * 2)) = .ok [account "c"] := rfl
    have hrequests : 0 + max 1 (pageCount 3 2 + 1 - 2) = 1 := by decide
    rw [(hpaged.1 hfits).1]
    refine Prod.ext hrecords (Prod.ext rfl ?_)
    rw [Store.mk.injEq]
    exact ⟨rfl, hrequests⟩
  · exact (paging_partitions_result .ok capped s hanswer).2 2 rfl

end Retrieving

end EntityQuery
