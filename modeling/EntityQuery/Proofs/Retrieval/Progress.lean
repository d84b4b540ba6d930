import EntityQuery.Proofs.Retrieval.StorePages

/-!
# Pages that promise another

A store promises another page only with a page that is full. So each round of a scan that goes on brings records,
and a scan asks at most once for each record of the result and once more. Pages of no records are the exception:
they are full when they are empty, and a scan of them goes on until there is no page number left.

* `Paging.length_cut`, `Query.length_paginate`: a page that promises another has as many records as the page size says;
* `scan_requests_le`, `scan_succeeds`: the rounds and the success of a scan of pages that hold records;
* `Query.Stalls`, `scan_of_stalls`: the queries whose pages are empty, and what a scan of them comes to;
* `continued_pages_progress`: the pages and the retrievals of every query.
-/

namespace EntityQuery

/-! ## Pages -/

namespace Paging

variable {p : Paging} {size : UInt32} {full : List Record}

/-- A page that promises another is full. -/
theorem length_cut (hmore : (p.cut size full).more = true) : (p.cut size full).records.length = size.toNat := by
  have hrest := more_cut.mp hmore
  have hstop : p.start size + size.toNat ≤ full.length := (start_add_size p size).trans_le hrest.le
  show ((full.take (min (p.start size + size.toNat) full.length)).drop (p.start size)).length = _
  rw [List.length_drop, List.length_take]
  omega

end Paging

namespace Query

variable {q : Query} {full : List Record}

/-- Only a page cut out by a page size promises another. -/
theorem more_paginate : (q.paginate full).more = true ↔ q.top = none ∧
    ∃ size, q.paging.pageSize = some size ∧ q.paging.effectiveNumber * size.toNat < full.length := by
  unfold paginate
  split
  · rename_i size htop hsize
    simp [htop, hsize, Paging.more_cut]
  · rename_i hwhole
    constructor
    · intro hmore
      cases hmore
    · rintro ⟨htop, size, hsize, -⟩
      exact absurd hsize (hwhole size htop)

theorem length_paginate (hmore : (q.paginate full).more = true) :
    ∃ size, q.paging.pageSize = some size ∧ (q.paginate full).records.length = size.toNat := by
  obtain ⟨htop, size, hsize, hrest⟩ := more_paginate.mp hmore
  have hcut : q.paginate full = q.paging.cut size full := by simp [paginate, htop, hsize]
  refine ⟨size, hsize, ?_⟩
  rw [hcut]
  exact Paging.length_cut (Paging.more_cut.mpr hrest)

/-- A page of records that promises another has a number below the number of all records. -/
theorem pageNumber_lt_of_more (hsize : q.paging.pageSize ≠ some 0) (hmore : (q.paginate full).more = true) :
    q.paging.pageNumber.toNat < full.length := by
  obtain ⟨-, size, hsome, hrest⟩ := more_paginate.mp hmore
  have hpos : 1 ≤ size.toNat := by
    by_contra hzero
    have hsizeZero : size = 0 := UInt32.toNat_inj.mp (Nat.eq_zero_of_not_pos hzero)
    exact hsize (hsizeZero ▸ hsome)
  have hnumber : q.paging.pageNumber.toNat ≤ q.paging.effectiveNumber := Nat.le_max_left _ _
  have hpages : q.paging.effectiveNumber * 1 ≤ q.paging.effectiveNumber * size.toNat := Nat.mul_le_mul_left _ hpos
  omega

/-- The pages of the query are empty, and the last of them is never reached. -/
def Stalls (q : Query) (full : List Record) : Prop :=
  q.top = none ∧ q.paging.pageSize = some 0 ∧ full ≠ []

theorem Stalls.more (h : q.Stalls full) : (q.paginate full).more = true := by
  obtain ⟨htop, hsize, hne⟩ := h
  refine more_paginate.mpr ⟨htop, 0, hsize, ?_⟩
  simpa using List.length_pos_iff.mpr hne

theorem stalls_capped : q.Stalls (q.capped full) ↔ q.Stalls full := by
  unfold Stalls capped
  cases htop : q.top with
  | none => rfl
  | some top => simp

theorem length_capped_le (q : Query) (full : List Record) : (q.capped full).length ≤ full.length := by
  unfold capped
  split
  · exact Nat.le_refl _
  · exact List.length_take_le' _ _

/-- A query that promises a page and does not stall has pages of records. -/
theorem pageSize_ne_zero (hstalls : ¬ q.Stalls full) (hmore : (q.paginate full).more = true) :
    q.paging.pageSize ≠ some 0 := by
  intro hzero
  obtain ⟨htop, size, -, hrest⟩ := more_paginate.mp hmore
  have hne : full ≠ [] := List.length_pos_iff.mp (Nat.zero_lt_of_lt hrest)
  exact hstalls ⟨htop, hzero, hne⟩

end Query

/-! ## Scans -/

section Scans

variable {q : Query} {s : Store} {full : List Record}

/-- A scan asks at most once for each record from its first page number on, and once at least. -/
theorem scan_requests_le (hstalls : ¬ q.Stalls full) (hres : q.result s.records = .ok full) :
    (scan Store.backend q s).2.2.executions ≤
      s.executions + max 1 (full.length + 1 - q.paging.pageNumber.toNat) := by
  induction q, s using scan.induct Store.backend with
  | case1 q s e s' h =>
    rw [backend_eq hres] at h
    cases h
  | case2 q s page s' h hmore hlimit _ _ _ _ ih =>
    rw [scan_of_more h hmore hlimit]
    rw [backend_eq hres] at h
    cases h
    have hrest := ih hstalls hres
    have hnumber := Query.pageNumber_lt_of_more (Query.pageSize_ne_zero hstalls hmore) hmore
    rw [Query.toNat_nextPage hlimit] at hrest
    dsimp only at hrest ⊢
    omega
  | case3 q s page s' h hmore hlimit =>
    rw [scan_of_exhausted h hmore hlimit]
    rw [backend_eq hres] at h
    cases h
    dsimp only
    omega
  | case4 q s page s' h hmore =>
    rw [scan_of_last h (by simpa using hmore)]
    rw [backend_eq hres] at h
    cases h
    dsimp only
    omega

/-- With a page number for each record a scan succeeds. -/
theorem scan_succeeds (hstalls : ¬ q.Stalls full) (hres : q.result s.records = .ok full)
    (hshort : full.length < 2 ^ 32) : ∃ records, (scan Store.backend q s).1 = .ok records := by
  induction q, s using scan.induct Store.backend with
  | case1 q s e s' h =>
    rw [backend_eq hres] at h
    cases h
  | case2 q s page s' h hmore hlimit _ _ _ _ ih =>
    rw [scan_of_more h hmore hlimit]
    rw [backend_eq hres] at h
    cases h
    obtain ⟨rest, hrest⟩ := ih hstalls hres
    refine ⟨(q.paginate full).records ++ rest, ?_⟩
    show Except.map _ (scan _ _ _).1 = _
    rw [hrest]
    rfl
  | case3 q s page s' h hmore hlimit =>
    rw [backend_eq hres] at h
    cases h
    have hnumber := Query.pageNumber_lt_of_more (Query.pageSize_ne_zero hstalls hmore) hmore
    omega
  | case4 q s page s' h hmore => exact ⟨_, by rw [scan_of_last h (by simpa using hmore)]⟩

/-- A scan of empty pages asks for every page number from its first one on and fails. -/
theorem scan_of_stalls (hstalls : q.Stalls full) (hres : q.result s.records = .ok full) :
    (scan Store.backend q s).1 = .error .pagesExhausted ∧
      (scan Store.backend q s).2.2 = ⟨s.records, s.executions + (2 ^ 32 - q.paging.pageNumber.toNat)⟩ := by
  induction q, s using scan.induct Store.backend with
  | case1 q s e s' h =>
    rw [backend_eq hres] at h
    cases h
  | case2 q s page s' h hmore hlimit _ _ _ _ ih =>
    rw [scan_of_more h hmore hlimit]
    rw [backend_eq hres] at h
    cases h
    obtain ⟨hfails, hstore⟩ := ih hstalls hres
    rw [Query.toNat_nextPage hlimit] at hstore
    constructor
    · show Except.map _ (scan _ _ _).1 = _
      rw [hfails]
      rfl
    · show (scan _ _ _).2.2 = _
      rw [hstore, Store.mk.injEq]
      exact ⟨rfl, by dsimp only; omega⟩
  | case3 q s page s' h hmore hlimit =>
    rw [scan_of_exhausted h hmore hlimit]
    rw [backend_eq hres] at h
    cases h
    have hlast : q.paging.pageNumber.toNat = 2 ^ 32 - 1 := by
      have := q.paging.pageNumber.toNat_lt
      omega
    refine ⟨rfl, ?_⟩
    rw [Store.mk.injEq]
    exact ⟨rfl, by omega⟩
  | case4 q s page s' h hmore =>
    rw [backend_eq hres] at h
    cases h
    exact absurd hstalls.more hmore

end Scans

/-! ## Retrievals -/

section Retrieving

variable {α : Type} (convert : Record → Except QueryError α) {q : Query} {s : Store} {full : List Record}

theorem retrieve_of_stalls (hstalls : q.Stalls full) (hres : q.result s.records = .ok full) :
    retrieve convert .all Store.backend q s = (.error .pagesExhausted, q,
      ⟨s.records, s.executions + (2 ^ 32 - q.paging.pageNumber.toNat)⟩) := by
  obtain ⟨hfails, hstore⟩ := scan_of_stalls hstalls hres
  rw [retrieve_all_eq (Query.isEmpty_of_result hres), hfails, hstore]
  rfl

/-- **A page that promises another brings records, unless the page size is zero.** It has as many as the page size
says. `whole.records` is the result without a cap and pages. A retrieval of all pages asks at most once for each of
them and once more, and succeeds if there is a page number for each. Only a query with records and a page size of
zero does not get on: its retrieval asks for every page number that is left and fails. -/
theorem continued_pages_progress (q : Query) (s : Store) :
    (∀ page, (Store.backend q s).1 = .ok page → page.more = true →
      ∃ size, q.paging.pageSize = some size ∧ page.records.length = size.toNat ∧ (page.records = [] ↔ size = 0)) ∧
    ∀ whole, (Store.backend q.unpaged s).1 = .ok whole →
      (¬ q.Stalls whole.records →
        (retrieve convert .all Store.backend q s).2.2.executions ≤ s.executions + (whole.records.length + 1) ∧
        (whole.records.length < 2 ^ 32 → ∃ records, (fetch .all Store.backend q s).1 = .ok records ∧
          (retrieve convert .all Store.backend q s).1 = convertAll convert records)) ∧
      (q.Stalls whole.records → retrieve convert .all Store.backend q s = (.error .pagesExhausted, q,
        ⟨s.records, s.executions + (2 ^ 32 - q.paging.pageNumber.toNat)⟩)) := by
  constructor
  · intro page hpage hmore
    have hanswer : q.answer s.records = .ok page := hpage
    obtain ⟨full, -, rfl⟩ := Query.exists_result_of_answer hanswer
    obtain ⟨size, hsize, hlength⟩ := Query.length_paginate hmore
    refine ⟨size, hsize, hlength, ?_⟩
    rw [← List.length_eq_zero_iff, hlength]
    exact UInt32.toNat_inj (b := 0)
  · intro whole hwhole
    have hres : q.result s.records = .ok (q.capped whole.records) := Query.result_of_unpaged_answer hwhole
    have hname := Query.isEmpty_of_result hres
    have hlength := q.length_capped_le whole.records
    constructor
    · intro hstalls
      rw [← Query.stalls_capped] at hstalls
      constructor
      · have hrequests := scan_requests_le hstalls hres
        rw [retrieve_all_eq hname]
        dsimp only
        omega
      · intro hshort
        obtain ⟨records, hrecords⟩ := scan_succeeds hstalls hres (lt_of_le_of_lt hlength hshort)
        refine ⟨records, ?_, ?_⟩
        · rw [fetch, fetchAll_eq hname, hrecords]
        · rw [retrieve_all_eq hname, hrecords]
          rfl
    · intro hstalls
      exact retrieve_of_stalls convert (Query.stalls_capped.mpr hstalls) hres

/-- Three accounts: the first page of two of them, the retrieval of all in such pages, and in pages of none. -/
theorem continued_pages_progress_accounts :
    let account (name : String) : Record :=
      { logicalName := "account", attributes := .ofList [("name", .string name)] }
    let full := [account "a", account "b", account "c"]
    let s : Store := { records := full }
    let accounts (size : UInt32) : Query :=
      { entity := "account", columns := .all, paging := { pageSize := some size } }
    let first : Page := { records := [account "a", account "b"], more := true, cookie := some "page:1" }
    (Store.backend (accounts 2) s).1 = .ok first ∧
      (∃ size, (accounts 2).paging.pageSize = some size ∧ first.records.length = size.toNat ∧
        (first.records = [] ↔ size = 0)) ∧
      (Store.backend (accounts 2).unpaged s).1 = .ok { records := full } ∧
      ¬ (accounts 2).Stalls full ∧
      (retrieve .ok .all Store.backend (accounts 2) s).2.2.executions ≤ 0 + (3 + 1) ∧
      (∃ records, (fetch .all Store.backend (accounts 2) s).1 = .ok records ∧
        (retrieve .ok .all Store.backend (accounts 2) s).1 = convertAll .ok records) ∧
      (accounts 0).Stalls full ∧
      retrieve .ok .all Store.backend (accounts 0) s =
        (.error .pagesExhausted, accounts 0, ⟨full, 0 + (2 ^ 32 - 1)⟩) := by
  intro account full s accounts first
  have hresult (paging : Paging) :
      ({ entity := "account", columns := .all, paging } : Query).result s.records = .ok full := by
    rw [Query.result_of_entity rfl]
    rfl
  have hfirst : (Store.backend (accounts 2) s).1 = .ok first := Query.answer_eq (hresult _)
  have hwhole : (Store.backend (accounts 2).unpaged s).1 = .ok { records := full } := Query.answer_eq (hresult _)
  have hgoes : ¬ (accounts 2).Stalls full := fun h => absurd h.2.1 (by decide)
  have hstalls : (accounts 0).Stalls full := ⟨rfl, rfl, List.cons_ne_nil _ _⟩
  obtain ⟨hpage, hretrieval⟩ := continued_pages_progress .ok (accounts 2) s
  obtain ⟨hrequests, hsucceeds⟩ := (hretrieval _ hwhole).1 hgoes
  have hfails := ((continued_pages_progress .ok (accounts 0) s).2 _ hwhole).2 hstalls
  exact ⟨hfirst, hpage first hfirst rfl, hwhole, hgoes, hrequests, hsucceeds (by decide), hstalls, hfails⟩

/-- One account in pages of none: the first page is empty and promises another, and a retrieval of the one record
asks for each of the page numbers and fails. -/
theorem empty_page_promises_more :
    let account : Record := { logicalName := "account", attributes := .ofList [("name", .string "a")] }
    let s : Store := { records := [account] }
    let q : Query := { entity := "account", columns := .all, paging := { pageSize := some 0 } }
    (Store.backend q.unpaged s).1 = .ok { records := [account] } ∧
      (Store.backend q s).1 = .ok { records := [], more := true, cookie := some "page:1" } ∧
      retrieve .ok .all Store.backend q s = (.error .pagesExhausted, q, ⟨[account], 2 ^ 32 - 1⟩) := by
  intro account s q
  have hresult (paging : Paging) :
      ({ entity := "account", columns := .all, paging } : Query).result s.records = .ok [account] := by
    rw [Query.result_of_entity rfl]
    rfl
  have hstalls : q.Stalls [account] := ⟨rfl, rfl, List.cons_ne_nil _ _⟩
  have hfails := retrieve_of_stalls .ok hstalls (hresult _)
  have hnumbers : 0 + (2 ^ 32 - 1) = 2 ^ 32 - 1 := Nat.zero_add _
  refine ⟨Query.answer_eq (hresult _), Query.answer_eq (hresult _), hfails.trans ?_⟩
  refine Prod.ext rfl (Prod.ext rfl ?_)
  rw [Store.mk.injEq]
  exact ⟨rfl, hnumbers⟩

end Retrieving

end EntityQuery
