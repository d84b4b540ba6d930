import EntityQuery.Retrieval.Scan
import Mathlib.Data.UInt

/-!
# One round of a scan, and the query after it

A round of `scan` asks once and then ends in one of three ways or goes on with the next page. The four lemmas
`scan_of_…` say what a scan is by its first answer; proofs about scans use them and not the definition.
Whatever the backend answers, a scan changes only the page number and the cookie of the query, and a
retrieval gives the query back as it was.

* `nextPage_eq_atPage`: the query that a round goes on with;
* `scan_query`, `fetch_query`: the query after a scan and after a retrieval;
* `fetch_simulates`: backends that answer alike give the same retrievals.
-/

namespace EntityQuery

/-- The query with another page number and another cookie. -/
def Query.atPage (q : Query) (number : Nat) (cookie : Option String) : Query :=
  { q with paging := { q.paging with pageNumber := UInt32.ofNat number, cookie } }

namespace Query

@[simp] theorem atPage_self (q : Query) : q.atPage q.paging.pageNumber.toNat q.paging.cookie = q := by
  rw [atPage, UInt32.ofNat_toNat]

@[simp] theorem atPage_atPage (q : Query) (m n : Nat) (c d : Option String) :
    (q.atPage m c).atPage n d = q.atPage n d := rfl

theorem nextPage_eq_atPage (q : Query) (cookie : Option String) :
    q.nextPage cookie = q.atPage (q.paging.pageNumber.toNat + 1) cookie := by
  have hnumber : q.paging.pageNumber + 1 = UInt32.ofNat (q.paging.pageNumber.toNat + 1) := by
    rw [UInt32.ofNat_add, UInt32.ofNat_toNat]
    rfl
  rw [nextPage, atPage, hnumber]

theorem toNat_nextPage {q : Query} (h : q.paging.pageNumber.toNat + 1 < 2 ^ 32) (cookie : Option String) :
    (q.nextPage cookie).paging.pageNumber.toNat = q.paging.pageNumber.toNat + 1 := by
  rw [nextPage_eq_atPage]
  exact Nat.mod_eq_of_lt h

end Query

section Rounds

variable {σ : Type} {b : Backend σ} {q : Query} {s s' : σ} {e : QueryError} {page : Page}

theorem scan_of_error (h : b q s = (.error e, s')) : scan b q s = (.error e, q, s') := by
  rw [scan, h]

theorem scan_of_last (h : b q s = (.ok page, s')) (hmore : page.more = false) :
    scan b q s = (.ok page.records, q, s') := by
  rw [scan, h]
  simp only [hmore, Bool.false_eq_true, if_false]

theorem scan_of_exhausted (h : b q s = (.ok page, s')) (hmore : page.more = true)
    (hlimit : ¬ q.paging.pageNumber.toNat + 1 < 2 ^ 32) : scan b q s = (.error .pagesExhausted, q, s') := by
  rw [scan, h]
  simp only [hmore, if_true, if_neg hlimit]

theorem scan_of_more (h : b q s = (.ok page, s')) (hmore : page.more = true)
    (hlimit : q.paging.pageNumber.toNat + 1 < 2 ^ 32) :
    scan b q s = ((scan b (q.nextPage page.cookie) s').1.map (page.records ++ ·),
      (scan b (q.nextPage page.cookie) s').2) := by
  rw [scan, h]
  simp only [hmore, if_true, if_pos hlimit]

end Rounds

section Afterwards

variable {σ : Type}

/-- After a scan the query is at some page with some cookie, and otherwise as it was. -/
theorem scan_query (b : Backend σ) (q : Query) (s : σ) : ∃ n c, (scan b q s).2.1 = q.atPage n c := by
  induction q, s using scan.induct b with
  | case1 q s e s' h =>
    rw [scan_of_error h]
    exact ⟨_, _, q.atPage_self.symm⟩
  | case2 q s page s' h hmore hlimit _ _ _ _ ih =>
    obtain ⟨n, c, hn⟩ := ih
    rw [scan_of_more h hmore hlimit]
    refine ⟨n, c, hn.trans ?_⟩
    rw [Query.nextPage_eq_atPage, Query.atPage_atPage]
  | case3 q s page s' h hmore hlimit =>
    rw [scan_of_exhausted h hmore hlimit]
    exact ⟨_, _, q.atPage_self.symm⟩
  | case4 q s page s' h hmore =>
    rw [scan_of_last h (by simpa using hmore)]
    exact ⟨_, _, q.atPage_self.symm⟩

/-- A retrieval of a query with an entity name is a scan, with the query as it was. -/
theorem fetchAll_eq {q : Query} (hname : q.entity.isEmpty = false) (b : Backend σ) (s : σ) :
    fetchAll b q s = ((scan b q s).1, q, (scan b q s).2.2) := by
  obtain ⟨n, c, hmoved⟩ := scan_query b q s
  rw [fetchAll, hname]
  simp only [Bool.false_eq_true, if_false, hmoved]
  rfl

/-- **A retrieval gives the query back as it was**, also when it fails. -/
theorem fetch_query (extent : Extent) (b : Backend σ) (q : Query) (s : σ) : (fetch extent b q s).2.1 = q := by
  cases extent with
  | page =>
    rw [fetch, fetchPage]
    split_ifs <;> rfl
  | all =>
    rw [fetch]
    cases hname : q.entity.isEmpty with
    | true => rw [fetchAll, hname]; rfl
    | false => rw [fetchAll_eq hname]

theorem exists_fetch (extent : Extent) (b : Backend σ) (q : Query) (s : σ) :
    ∃ answer s', fetch extent b q s = (answer, q, s') :=
  ⟨_, _, Prod.ext rfl (Prod.ext (fetch_query extent b q s) rfl)⟩

/-- A retrieval of all pages is a scan, whose records are converted one by one. -/
theorem retrieve_all_eq {α : Type} {q : Query} (hname : q.entity.isEmpty = false)
    (convert : Record → Except QueryError α) (b : Backend σ) (s : σ) : retrieve convert .all b q s =
      ((scan b q s).1.bind (convertAll convert), q, (scan b q s).2.2) := by
  rw [retrieve, fetch, fetchAll_eq hname]

theorem retrieve_unnamed {α : Type} {q : Query} (hname : q.entity.isEmpty = true)
    (convert : Record → Except QueryError α) (extent : Extent) (b : Backend σ) (s : σ) :
    retrieve convert extent b q s = (.error .unnamedQuery, q, s) := by
  cases extent with
  | page => rw [retrieve, fetch, fetchPage, if_pos hname]; rfl
  | all => rw [retrieve, fetch, fetchAll, if_pos hname]; rfl

end Afterwards

section Simulation

variable {σ τ : Type} {b : Backend σ} {b' : Backend τ} {f : σ → τ}

/-- Backends that answer alike on corresponding states are scanned alike. -/
theorem scan_simulates (h : ∀ q s, b' q (f s) = ((b q s).1, f (b q s).2)) (q : Query) (s : σ) :
    scan b' q (f s) = ((scan b q s).1, (scan b q s).2.1, f (scan b q s).2.2) := by
  induction q, s using scan.induct b with
  | case1 q s e s' hb =>
    rw [scan_of_error hb]
    exact scan_of_error (by rw [h, hb])
  | case2 q s page s' hb hmore hlimit _ _ _ _ ih =>
    have hb' : b' q (f s) = (.ok page, f s') := by
      rw [h, hb]
    rw [scan_of_more hb hmore hlimit, scan_of_more hb' hmore hlimit, ih]
  | case3 q s page s' hb hmore hlimit =>
    rw [scan_of_exhausted hb hmore hlimit]
    exact scan_of_exhausted (by rw [h, hb]) hmore hlimit
  | case4 q s page s' hb hmore =>
    have hlast : page.more = false := by simpa using hmore
    rw [scan_of_last hb hlast]
    exact scan_of_last (by rw [h, hb]) hlast

theorem fetch_simulates (h : ∀ q s, b' q (f s) = ((b q s).1, f (b q s).2)) (extent : Extent) (q : Query)
    (s : σ) : fetch extent b' q (f s) =
      ((fetch extent b q s).1, (fetch extent b q s).2.1, f (fetch extent b q s).2.2) := by
  cases extent with
  | page =>
    rw [fetch, fetch, fetchPage, fetchPage]
    split_ifs
    · rfl
    · rw [h]
  | all =>
    rw [fetch, fetch]
    cases hname : q.entity.isEmpty with
    | true => rw [fetchAll, fetchAll, if_pos hname, if_pos hname]
    | false => rw [fetchAll_eq hname, fetchAll_eq hname, scan_simulates h]

end Simulation

end EntityQuery
