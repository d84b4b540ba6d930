import EntityQuery.Proofs.Retrieval.StorePages

/-!
# A retrieval from page zero

A store reads the page number zero as one, but the page after page zero has the number one. So a retrieval of
all pages from zero meets the first page again when it is not the last: it gives the records of the first page
and then those of a retrieval from one. When the first page is the last, both give the same.

* `scan_zero_of_last`, `scan_zero_of_more`: a scan from zero by what the first page promises;
* `more_of_first`: which results have a page after the first one;
* `retrieve_zero_of_short`, `retrieve_zero_of_long`: a retrieval from zero of either kind of result;
* `retrieval_from_zero`: retrievals from zero and from one, for every query with a page size.
-/

namespace EntityQuery

section Scans

variable {q : Query} {s s' : Store} {c : Option String} {page : Page} {size : UInt32}

theorem backend_zero (q : Query) (s : Store) (c : Option String) :
    Store.backend (q.atPage 0 c) s = Store.backend (q.atPage 1 c) s := rfl

/-- When no page is promised after the first one, the scans from zero and from one ask once and give the same. -/
theorem scan_zero_of_last (h : ∀ page s', Store.backend (q.atPage 1 c) s = (.ok page, s') → page.more = false) :
    (scan Store.backend (q.atPage 0 c) s).1 = (scan Store.backend (q.atPage 1 c) s).1 ∧
      (scan Store.backend (q.atPage 0 c) s).2.2 = (scan Store.backend (q.atPage 1 c) s).2.2 := by
  obtain ⟨answer, s', hone⟩ : ∃ answer s', Store.backend (q.atPage 1 c) s = (answer, s') := ⟨_, _, rfl⟩
  have hzero : Store.backend (q.atPage 0 c) s = (answer, s') := (backend_zero q s c).trans hone
  rcases answer with e | page
  · rw [scan_of_error hone, scan_of_error hzero]
    exact ⟨rfl, rfl⟩
  · have hlast := h page s' hone
    rw [scan_of_last hone hlast, scan_of_last hzero hlast]
    exact ⟨rfl, rfl⟩

/-- When a page is promised after the first one, the scan from zero gives the first page and goes on from one. -/
theorem scan_zero_of_more (h : Store.backend (q.atPage 1 c) s = (.ok page, s')) (hmore : page.more = true) :
    scan Store.backend (q.atPage 0 c) s =
      ((scan Store.backend (q.atPage 1 page.cookie) s').1.map (page.records ++ ·),
        (scan Store.backend (q.atPage 1 page.cookie) s').2) := by
  have hlimit : 0 + 1 < 2 ^ 32 := by decide
  exact scan_of_more ((backend_zero q s c).trans h) hmore hlimit

/-- Only a result without a cap that does not fit the first page has a page after it. -/
theorem more_of_first (hsize : q.paging.pageSize = some size)
    (h : Store.backend (q.atPage 1 c) s = (.ok page, s')) (hmore : page.more = true) :
    q.top = none ∧ ∃ full, q.result s.records = .ok full ∧ size.toNat < full.length := by
  have hanswer : (q.atPage 1 c).answer s.records = .ok page := congrArg Prod.fst h
  cases hres : q.result s.records with
  | error e =>
    rw [Query.answer, Query.result_atPage, hres] at hanswer
    cases hanswer
  | ok full =>
    cases htop : q.top with
    | some top =>
      rw [Query.answer_eq ((q.result_atPage 1 c _).trans hres), Query.paginate,
        show (q.atPage 1 c).top = some top from htop] at hanswer
      cases hanswer
      cases hmore
    | none =>
      have hcut := backend_cut (q := q.atPage 1 c) htop hsize hres
      rw [h] at hcut
      cases hcut
      have hrest := (Paging.cut_more (p := (q.atPage 1 c).paging) Nat.one_pos).mp hmore
      exact ⟨rfl, full, rfl, lt_of_eq_of_lt (Nat.one_mul size.toNat).symm hrest⟩

theorem Paging.cut_records_first {p : Paging} (hp : p.effectiveNumber = 1) (size : UInt32) (full : List Record) :
    (p.cut size full).records = full.take size.toNat := by
  have hstart : p.start size = 0 := by
    rw [start, hp, Nat.sub_self, Nat.zero_mul]
  show (full.take (min (p.start size + size.toNat) full.length)).drop (p.start size) = _
  rw [hstart, Nat.zero_add, List.drop_zero, ← List.take_eq_take_min]

end Scans

section Retrieving

variable {α : Type} (convert : Record → Except QueryError α) {q : Query} {s : Store} {c : Option String}
  {size : UInt32} {full : List Record}

/-- When the first page is the last, retrievals from zero and from one give the same. -/
theorem retrieve_zero_of_short (hsize : q.paging.pageSize = some size)
    (hshort : ∀ full, q.top = none → q.result s.records = .ok full → full.length ≤ size.toNat) :
    (retrieve convert .all Store.backend (q.atPage 0 c) s).1 =
        (retrieve convert .all Store.backend (q.atPage 1 c) s).1 ∧
      (retrieve convert .all Store.backend (q.atPage 0 c) s).2.2 =
        (retrieve convert .all Store.backend (q.atPage 1 c) s).2.2 := by
  cases hname : q.entity.isEmpty with
  | true =>
    rw [retrieve_unnamed (q := q.atPage 0 c) hname, retrieve_unnamed (q := q.atPage 1 c) hname]
    exact ⟨rfl, rfl⟩
  | false =>
    have hlast : ∀ page s', Store.backend (q.atPage 1 c) s = (.ok page, s') → page.more = false := by
      intro page s' h
      by_contra hmore
      obtain ⟨htop, full, hres, hlong⟩ := more_of_first hsize h (by simpa using hmore)
      exact absurd hlong (Nat.not_lt.mpr (hshort full htop hres))
    obtain ⟨hrecords, hstore⟩ := scan_zero_of_last hlast
    rw [retrieve_all_eq (q := q.atPage 0 c) hname, retrieve_all_eq (q := q.atPage 1 c) hname, hrecords, hstore]
    exact ⟨rfl, rfl⟩

section Long

/-! `full` is the result of the query, and its first page is not the last one. -/

variable (htop : q.top = none) (hsize : q.paging.pageSize = some size) (hres : q.result s.records = .ok full)
  (hlong : size.toNat < full.length)

include htop hsize hres hlong

/-- The scan from zero gives the first page and goes on from one. -/
theorem scan_zero_of_long (c : Option String) :
    ∃ cookie, scan Store.backend (q.atPage 0 c) s =
      ((scan Store.backend (q.atPage 1 cookie) ⟨s.records, s.executions + 1⟩).1.map (full.take size.toNat ++ ·),
        (scan Store.backend (q.atPage 1 cookie) ⟨s.records, s.executions + 1⟩).2) := by
  have hcut := backend_cut (q := q.atPage 1 c) htop hsize hres
  have hrest : 1 * size.toNat < full.length := lt_of_eq_of_lt (Nat.one_mul size.toNat) hlong
  have hmore := (Paging.cut_more (p := (q.atPage 1 c).paging) Nat.one_pos).mpr hrest
  have hrecords := Paging.cut_records_first (p := (q.atPage 1 c).paging) rfl size full
  rw [← hrecords]
  exact ⟨_, scan_zero_of_more hcut hmore⟩

/-- The scan from one gives the whole result, if there are numbers enough for its pages. -/
theorem scan_one_of_long (hn : 0 < size.toNat) (hfits : full.length ≤ (2 ^ 32 - 1) * size.toNat)
    (c : Option String) : (scan Store.backend (q.atPage 1 c) s).1 = .ok full ∧
      (scan Store.backend (q.atPage 1 c) s).2.2 =
        ⟨s.records, s.executions + pageCount full.length size.toNat⟩ := by
  have hcount : 0 < pageCount full.length size.toNat := by
    rw [lt_pageCount hn]
    omega
  obtain ⟨hrecords, hstore⟩ := scan_store_pages (q := q.atPage 1 c) hn htop hsize Nat.one_pos hres hfits
  have hnumber : (q.atPage 1 c).paging.pageNumber.toNat = 1 := rfl
  rw [hnumber] at hrecords hstore
  rw [Nat.add_sub_cancel, Nat.max_eq_right hcount] at hstore
  rw [Nat.sub_self, Nat.zero_mul, List.drop_zero] at hrecords
  exact ⟨hrecords, hstore⟩

theorem retrieve_one_of_long (hn : 0 < size.toNat) (hfits : full.length ≤ (2 ^ 32 - 1) * size.toNat)
    (c : Option String) : retrieve convert .all Store.backend (q.atPage 1 c) s =
      (convertAll convert full, q.atPage 1 c,
        ⟨s.records, s.executions + pageCount full.length size.toNat⟩) := by
  obtain ⟨hrecords, hstore⟩ := scan_one_of_long htop hsize hres hlong hn hfits c
  have hname : (q.atPage 1 c).entity.isEmpty = false := Query.isEmpty_of_result hres
  rw [retrieve_all_eq hname, hrecords, hstore]
  rfl

/-- The retrieval from zero gives the first page twice. -/
theorem retrieve_zero_of_long (hn : 0 < size.toNat) (hfits : full.length ≤ (2 ^ 32 - 1) * size.toNat)
    (c : Option String) : retrieve convert .all Store.backend (q.atPage 0 c) s =
      (convertAll convert (full.take size.toNat ++ full), q.atPage 0 c,
        ⟨s.records, s.executions + 1 + pageCount full.length size.toNat⟩) := by
  obtain ⟨cookie, hzero⟩ := scan_zero_of_long htop hsize hres hlong c
  obtain ⟨hrecords, hstore⟩ :=
    scan_one_of_long (s := ⟨s.records, s.executions + 1⟩) htop hsize hres hlong hn hfits cookie
  have hname : (q.atPage 0 c).entity.isEmpty = false := Query.isEmpty_of_result hres
  rw [retrieve_all_eq hname, hzero, hrecords]
  exact Prod.ext rfl (Prod.ext rfl hstore)

/-- With more pages than there are numbers, the retrievals from zero and from one fail. -/
theorem retrieve_of_exhausted (hexhausted : (2 ^ 32 - 1) * size.toNat < full.length) (c : Option String) :
    (retrieve convert .all Store.backend (q.atPage 1 c) s).1 = .error .pagesExhausted ∧
      (retrieve convert .all Store.backend (q.atPage 0 c) s).1 = .error .pagesExhausted := by
  have hscan (t : Store) (ht : q.result t.records = .ok full) (d : Option String) :
      (scan Store.backend (q.atPage 1 d) t).1 = .error .pagesExhausted :=
    scan_store_exhausted (q := q.atPage 1 d) htop hsize Nat.one_pos ht hexhausted
  have hname := Query.isEmpty_of_result hres
  obtain ⟨cookie, hzero⟩ := scan_zero_of_long htop hsize hres hlong c
  constructor
  · rw [retrieve_all_eq (q := q.atPage 1 c) hname, hscan s hres c]
    rfl
  · rw [retrieve_all_eq (q := q.atPage 0 c) hname, hzero, hscan ⟨s.records, s.executions + 1⟩ hres cookie]
    rfl

end Long

/-- **A retrieval from page zero is one from page one as long as the first page is the last**, which it is under
a cap, in a failure and for a result that fits it. Otherwise it gives the records of the first page twice, by one
more request. A result with more pages than there are numbers is a failure from both. -/
theorem retrieval_from_zero (q : Query) (s : Store) (c : Option String) (hsize : q.paging.pageSize = some size)
    (hn : 0 < size.toNat) :
    ((∀ full, q.top = none → q.result s.records = .ok full → full.length ≤ size.toNat) →
      (retrieve convert .all Store.backend (q.atPage 0 c) s).1 =
          (retrieve convert .all Store.backend (q.atPage 1 c) s).1 ∧
        (retrieve convert .all Store.backend (q.atPage 0 c) s).2.2 =
          (retrieve convert .all Store.backend (q.atPage 1 c) s).2.2) ∧
      ∀ full, q.top = none → q.result s.records = .ok full → size.toNat < full.length →
        (full.length ≤ (2 ^ 32 - 1) * size.toNat →
          retrieve convert .all Store.backend (q.atPage 1 c) s = (convertAll convert full, q.atPage 1 c,
              ⟨s.records, s.executions + pageCount full.length size.toNat⟩) ∧
            retrieve convert .all Store.backend (q.atPage 0 c) s =
              (convertAll convert (full.take size.toNat ++ full), q.atPage 0 c,
                ⟨s.records, s.executions + 1 + pageCount full.length size.toNat⟩)) ∧
        ((2 ^ 32 - 1) * size.toNat < full.length →
          (retrieve convert .all Store.backend (q.atPage 1 c) s).1 = .error .pagesExhausted ∧
            (retrieve convert .all Store.backend (q.atPage 0 c) s).1 = .error .pagesExhausted) := by
  refine ⟨retrieve_zero_of_short convert hsize, ?_⟩
  intro full htop hres hlong
  constructor
  · intro hfits
    exact ⟨retrieve_one_of_long convert htop hsize hres hlong hn hfits c,
      retrieve_zero_of_long convert htop hsize hres hlong hn hfits c⟩
  · intro hexhausted
    exact retrieve_of_exhausted convert htop hsize hres hlong hexhausted c

/-- Three accounts in a page of three, and the same in pages of two. -/
theorem retrieval_from_zero_accounts :
    let account (name : String) : Record :=
      { logicalName := "account", attributes := .ofList [("name", .string name)] }
    let s : Store := { records := [account "a", account "b", { logicalName := "contact" }, account "c"] }
    let accounts (size : UInt32) : Query :=
      { entity := "account", columns := .all, paging := { pageSize := some size } }
    (retrieve .ok .all Store.backend ((accounts 3).atPage 0 none) s).1 =
        (retrieve .ok .all Store.backend ((accounts 3).atPage 1 none) s).1 ∧
      retrieve .ok .all Store.backend ((accounts 2).atPage 0 none) s =
        (.ok [account "a", account "b", account "a", account "b", account "c"], (accounts 2).atPage 0 none,
          ⟨s.records, 3⟩) := by
  intro account s accounts
  have hresult (size : UInt32) :
      (accounts size).result s.records = .ok [account "a", account "b", account "c"] := by
    rw [Query.result_of_entity rfl]
    rfl
  constructor
  · refine ((retrieval_from_zero .ok (accounts 3) s none rfl (by decide)).1 fun full _ hfull => ?_).1
    cases (hresult 3).symm.trans hfull
    exact Nat.le_refl 3
  · have htwice := (retrieval_from_zero .ok (accounts 2) s none rfl (by decide)).2 _ rfl (hresult 2) (by decide)
    have hcount : 0 + 1 + pageCount 3 2 = 3 := by decide
    rw [(htwice.1 (by decide)).2]
    refine Prod.ext rfl (Prod.ext rfl ?_)
    rw [Store.mk.injEq]
    exact ⟨rfl, hcount⟩

/-- Three accounts in pages of two: a retrieval from page zero gives the first two of them twice, and is not the
one from page one. -/
theorem first_page_twice :
    let account (name : String) : Record :=
      { logicalName := "account", attributes := .ofList [("name", .string name)] }
    let s : Store := { records := [account "a", account "b", account "c"] }
    let accounts (number : UInt32) : Query :=
      { entity := "account", columns := .all, paging := { pageSize := some 2, pageNumber := number } }
    (retrieve .ok .all Store.backend (accounts 0) s).1 =
        .ok [account "a", account "b", account "a", account "b", account "c"] ∧
      (retrieve .ok .all Store.backend (accounts 1) s).1 = .ok [account "a", account "b", account "c"] ∧
      (retrieve .ok .all Store.backend (accounts 0) s).1 ≠ (retrieve .ok .all Store.backend (accounts 1) s).1 := by
  intro account s accounts
  have hresult : (accounts 1).result s.records = .ok [account "a", account "b", account "c"] := by
    rw [Query.result_of_entity rfl]
    rfl
  have hzero : (retrieve .ok .all Store.backend (accounts 0) s).1 =
      .ok [account "a", account "b", account "a", account "b", account "c"] :=
    congrArg Prod.fst
      (retrieve_zero_of_long .ok (q := accounts 1) rfl rfl hresult (by decide) (by decide) (by decide) none)
  have hone : (retrieve .ok .all Store.backend (accounts 1) s).1 = .ok [account "a", account "b", account "c"] :=
    congrArg Prod.fst
      (retrieve_one_of_long .ok (q := accounts 1) rfl rfl hresult (by decide) (by decide) (by decide) none)
  refine ⟨hzero, hone, ?_⟩
  rw [hzero, hone]
  intro h
  exact absurd (congrArg List.length (Except.ok.inj h)) (by decide)

end Retrieving

end EntityQuery
