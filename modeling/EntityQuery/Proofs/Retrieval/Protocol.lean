import EntityQuery.Proofs.Retrieval.Scan

/-!
# What a retrieval of all pages asks for

The backend is arbitrary: each answer may depend on everything that it was asked before. `Backend.recorded`
answers as a backend does and keeps every request with its answer, so that a run leaves the whole exchange.

* `ScanRun`: the exchanges that a scan can have, with its result, one constructor for each way a round ends;
* `scan_recorded`: a recorded scan is the plain scan, and its exchanges are a `ScanRun`;
* `ScanRun.protocol`: requests, end and result of a run, read off the exchanges by their index;
* `converted_iff`: records that are converted one by one, each with its result up to the first failure;
* `retrieve_all_protocol`: all of this of a retrieval, for every backend, query and conversion.
-/

namespace EntityQuery

/-! ## Exchanges -/

/-- A request and its answer. -/
structure Exchange where
  request : Query
  answer : Except QueryError Page

namespace Exchange

def records (x : Exchange) : List Record :=
  match x.answer with
  | .ok page => page.records
  | .error _ => []

def cookie (x : Exchange) : Option String :=
  match x.answer with
  | .ok page => page.cookie
  | .error _ => none

end Exchange

/-- Answers as a backend does, and keeps every request with its answer, in order. -/
def Backend.recorded {σ : Type} (b : Backend σ) : Backend (σ × List Exchange) := fun q s =>
  match b q s.1 with
  | (answer, state) => (answer, state, s.2 ++ [⟨q, answer⟩])

/-- The answers are those that a backend gives to the requests, one after the other from a state to another. -/
def Backend.Replies {σ : Type} (b : Backend σ) : σ → List Exchange → σ → Prop
  | s, [], s' => s = s'
  | s, x :: log, s' => ∃ t, b x.request s = (x.answer, t) ∧ b.Replies t log s'

/-! ## Runs -/

/-- The exchanges of a scan from a query on, and what it gives. It ends with a failure, with a page that is the
last one, or with one that promises a page when numbers are exhausted; else it goes on with the next page. -/
inductive ScanRun : Query → List Exchange → Except QueryError (List Record) → Prop where
  | failed (q : Query) (e : QueryError) : ScanRun q [⟨q, .error e⟩] (.error e)
  | last {q : Query} {page : Page} (hmore : page.more = false) : ScanRun q [⟨q, .ok page⟩] (.ok page.records)
  | exhausted {q : Query} {page : Page} (hmore : page.more = true)
    (hlimit : q.paging.pageNumber.toNat + 1 = 2 ^ 32) : ScanRun q [⟨q, .ok page⟩] (.error .pagesExhausted)
  | next {q : Query} {page : Page} {log : List Exchange} {rest : Except QueryError (List Record)}
    (hmore : page.more = true) (hlimit : q.paging.pageNumber.toNat + 1 < 2 ^ 32)
    (hrest : ScanRun (q.nextPage page.cookie) log rest) :
    ScanRun q (⟨q, .ok page⟩ :: log) (rest.map (page.records ++ ·))

section Recording

variable {σ : Type} {b : Backend σ} {q : Query} {s s' : σ} {answer : Except QueryError Page}

theorem recorded_of (h : b q s = (answer, s')) (log : List Exchange) :
    b.recorded q (s, log) = (answer, s', log ++ [⟨q, answer⟩]) := by
  rw [Backend.recorded, h]

/-- **A recorded scan is the plain scan**, and what it adds to the record is a run that the backend answered. -/
theorem scan_recorded (b : Backend σ) (q : Query) (s : σ) (log : List Exchange) :
    ∃ added, ScanRun q added (scan b q s).1 ∧ b.Replies s added (scan b q s).2.2 ∧
      scan b.recorded q (s, log) =
        ((scan b q s).1, (scan b q s).2.1, (scan b q s).2.2, log ++ added) := by
  induction q, s using scan.induct b generalizing log with
  | case1 q s e s' h =>
    rw [scan_of_error h, scan_of_error (recorded_of h log)]
    exact ⟨_, .failed q e, ⟨s', h, rfl⟩, rfl⟩
  | case2 q s page s' h hmore hlimit _ _ _ _ ih =>
    obtain ⟨added, hrun, hreplies, hscan⟩ := ih (log ++ [⟨q, .ok page⟩])
    rw [scan_of_more h hmore hlimit, scan_of_more (recorded_of h log) hmore hlimit, hscan]
    refine ⟨⟨q, .ok page⟩ :: added, .next hmore hlimit hrun, ⟨s', h, hreplies⟩, ?_⟩
    rw [List.append_assoc, List.singleton_append]
  | case3 q s page s' h hmore hlimit =>
    rw [scan_of_exhausted h hmore hlimit, scan_of_exhausted (recorded_of h log) hmore hlimit]
    have hlast : q.paging.pageNumber.toNat + 1 = 2 ^ 32 := by
      have := q.paging.pageNumber.toNat_lt
      omega
    exact ⟨_, .exhausted hmore hlast, ⟨s', h, rfl⟩, rfl⟩
  | case4 q s page s' h hmore =>
    have hlast : page.more = false := by simpa using hmore
    rw [scan_of_last h hlast, scan_of_last (recorded_of h log) hlast]
    exact ⟨_, .last hlast, ⟨s', h, rfl⟩, rfl⟩

end Recording

/-! ## The protocol -/

/-- The cookie that goes with a request of a record: the one of the answer before, and at first the query's. -/
def handedCookie (q : Query) (log : List Exchange) : Nat → Option String
  | 0 => q.paging.cookie
  | i + 1 => log[i]?.bind Exchange.cookie

/-- What is asked from a query on, when it ends, and what it gives. -/
structure ScanProtocol (q : Query) (log : List Exchange) (result : Except QueryError (List Record)) : Prop where
  /-- There is a request for each page number at most. -/
  bounded : q.paging.pageNumber.toNat + log.length ≤ 2 ^ 32
  /-- Only the page number and the cookie change from request to request. -/
  requests : ∀ i x, log[i]? = some x →
    x.request = q.atPage (q.paging.pageNumber.toNat + i) (handedCookie q log i)
  /-- A request is followed by another when its answer promises a page and there is a number for it. -/
  continues : ∀ i x, log[i]? = some x → (i + 1 < log.length ↔
    ∃ page, x.answer = .ok page ∧ page.more = true ∧ q.paging.pageNumber.toNat + i + 1 < 2 ^ 32)
  /-- The last answer decides the result: it is a failure and the result as well, or it promises a page after
  the one with the greatest number, or it is the last page and the result is the records of all answers. -/
  ends : ∃ x, log.getLast? = some x ∧
    ((∃ e, x.answer = .error e ∧ result = .error e) ∨
      (∃ page, x.answer = .ok page ∧ page.more = true ∧ x.request.paging.pageNumber.toNat + 1 = 2 ^ 32 ∧
        result = .error .pagesExhausted) ∨
      ∃ page, x.answer = .ok page ∧ page.more = false ∧ result = .ok (log.flatMap Exchange.records))

theorem request_of_single {q : Query} {y : Exchange} (hy : y.request = q) (i : Nat) (x : Exchange)
    (hx : [y][i]? = some x) : x.request = q.atPage (q.paging.pageNumber.toNat + i) (handedCookie q [y] i) := by
  rw [List.getElem?_singleton] at hx
  split_ifs at hx with hi
  cases hx
  rw [hi, hy]
  exact q.atPage_self.symm

namespace ScanRun

variable {q : Query} {log : List Exchange} {result : Except QueryError (List Record)}

theorem length_pos (h : ScanRun q log result) : 0 < log.length := by
  cases h <;> exact Nat.succ_pos _

theorem length_le (h : ScanRun q log result) : q.paging.pageNumber.toNat + log.length ≤ 2 ^ 32 := by
  induction h with
  | failed q e => exact q.paging.pageNumber.toNat_lt
  | last hmore => exact UInt32.toNat_lt _
  | exhausted hmore hlimit => exact hlimit.le
  | next hmore hlimit hrest ih =>
    rw [Query.toNat_nextPage hlimit] at ih
    rw [List.length_cons]
    omega

/-- The request at an index has the page number that is as much greater, and the cookie of the answer before. -/
theorem request_eq (h : ScanRun q log result) :
    ∀ i x, log[i]? = some x → x.request = q.atPage (q.paging.pageNumber.toNat + i) (handedCookie q log i) := by
  induction h with
  | failed q e => exact request_of_single rfl
  | last hmore => exact request_of_single rfl
  | exhausted hmore hlimit => exact request_of_single rfl
  | @next q page log rest hmore hlimit hrest ih =>
    rintro (_ | i) x hx
    · cases hx
      exact q.atPage_self.symm
    · rw [List.getElem?_cons_succ] at hx
      rw [ih i x hx, Query.toNat_nextPage hlimit, Query.nextPage_eq_atPage, Query.atPage_atPage,
        show q.paging.pageNumber.toNat + 1 + i = q.paging.pageNumber.toNat + (i + 1) by omega]
      -- the first request of the rest has the cookie of this answer, the others those of the rest
      cases i with
      | zero => rfl
      | succ i => rfl

/-- A run goes on after an answer just when it promises a page that has a number. -/
theorem continues_iff (h : ScanRun q log result) : ∀ i x, log[i]? = some x → (i + 1 < log.length ↔
    ∃ page, x.answer = .ok page ∧ page.more = true ∧ q.paging.pageNumber.toNat + i + 1 < 2 ^ 32) := by
  induction h with
  | failed q e =>
    rintro (_ | i) x hx
    · cases hx
      simp
    · cases hx
  | @last q page hmore =>
    rintro (_ | i) x hx
    · cases hx
      simp [hmore]
    · cases hx
  | @exhausted q page hmore hlimit =>
    rintro (_ | i) x hx
    · cases hx
      simp [hlimit]
    · cases hx
  | @next q page log rest hmore hlimit hrest ih =>
    rintro (_ | i) x hx
    · cases hx
      exact ⟨fun _ => ⟨page, rfl, hmore, hlimit⟩, fun _ => Nat.succ_lt_succ hrest.length_pos⟩
    · rw [List.getElem?_cons_succ] at hx
      have hrec := ih i x hx
      rw [Query.toNat_nextPage hlimit] at hrec
      rw [List.length_cons, Nat.add_lt_add_iff_right, hrec,
        show q.paging.pageNumber.toNat + 1 + i + 1 = q.paging.pageNumber.toNat + (i + 1) + 1 by omega]

theorem ends (h : ScanRun q log result) : ∃ x, log.getLast? = some x ∧
    ((∃ e, x.answer = .error e ∧ result = .error e) ∨
      (∃ page, x.answer = .ok page ∧ page.more = true ∧ x.request.paging.pageNumber.toNat + 1 = 2 ^ 32 ∧
        result = .error .pagesExhausted) ∨
      ∃ page, x.answer = .ok page ∧ page.more = false ∧ result = .ok (log.flatMap Exchange.records)) := by
  induction h with
  | failed q e => exact ⟨_, rfl, .inl ⟨e, rfl, rfl⟩⟩
  | @last q page hmore =>
    refine ⟨_, rfl, .inr (.inr ⟨page, rfl, hmore, ?_⟩)⟩
    rw [List.flatMap_singleton]
    rfl
  | @exhausted q page hmore hlimit => exact ⟨_, rfl, .inr (.inl ⟨page, rfl, hmore, hlimit, rfl⟩)⟩
  | @next q page log rest hmore hlimit hrest ih =>
    obtain ⟨x, hlast, hx⟩ := ih
    refine ⟨x, ?_, ?_⟩
    · rw [List.getLast?_cons, hlast]
      rfl
    · rcases hx with ⟨e, he, hres⟩ | ⟨p, hp, hm, hnum, hres⟩ | ⟨p, hp, hm, hres⟩ <;> rw [hres]
      · exact .inl ⟨e, he, rfl⟩
      · exact .inr (.inl ⟨p, hp, hm, hnum, rfl⟩)
      · exact .inr (.inr ⟨p, hp, hm, rfl⟩)

/-- The records of a scan that succeeds are those of its answers. -/
theorem flatMap_records {records : List Record} (h : ScanRun q log (.ok records)) :
    log.flatMap Exchange.records = records := by
  obtain ⟨x, -, ⟨e, -, he⟩ | ⟨page, -, -, -, he⟩ | ⟨page, -, -, hok⟩⟩ := h.ends
  · cases he
  · cases he
  · exact (Except.ok.inj hok).symm

theorem protocol (h : ScanRun q log result) : ScanProtocol q log result :=
  ⟨h.length_le, h.request_eq, h.continues_iff, h.ends⟩

end ScanRun

/-! ## Conversion -/

section Conversion

variable {α : Type} {convert : Record → Except QueryError α} {r : Record} {rest records : List Record}

/-- What becomes of records that are converted one by one: the results of all records in their order, or the failure
of the first record that cannot be converted. -/
def Converted (convert : Record → Except QueryError α) (records : List Record) : Except QueryError (List α) → Prop
  | .ok xs => List.Forall₂ (fun r x => convert r = .ok x) records xs
  | .error e => ∃ before r after, records = before ++ r :: after ∧ (∀ b ∈ before, ∃ x, convert b = .ok x) ∧
      convert r = .error e

theorem convertAll_cons_of_error {e : QueryError} (h : convert r = .error e) (rest : List Record) :
    convertAll convert (r :: rest) = .error e := by
  rw [convertAll, h]
  rfl

theorem convertAll_cons_of_ok {x : α} (h : convert r = .ok x) (rest : List Record) :
    convertAll convert (r :: rest) = (convertAll convert rest).map (x :: ·) := by
  rw [convertAll, h]
  rfl

theorem converted_convertAll (convert : Record → Except QueryError α) (records : List Record) :
    Converted convert records (convertAll convert records) := by
  induction records with
  | nil => exact .nil
  | cons r rest ih =>
    cases hr : convert r with
    | error e =>
      rw [convertAll_cons_of_error hr]
      exact ⟨[], r, rest, rfl, nofun, hr⟩
    | ok x =>
      rw [convertAll_cons_of_ok hr]
      cases hrest : convertAll convert rest with
      | error e =>
        rw [hrest] at ih
        obtain ⟨before, r', after, rfl, hbefore, hr'⟩ := ih
        exact ⟨r :: before, r', after, rfl, List.forall_mem_cons.mpr ⟨⟨x, hr⟩, hbefore⟩, hr'⟩
      | ok xs =>
        rw [hrest] at ih
        exact .cons hr ih

/-- **Converting one by one settles the result**, and `convertAll` has it. -/
theorem converted_iff {result : Except QueryError (List α)} :
    Converted convert records result ↔ convertAll convert records = result := by
  constructor
  · intro h
    induction records generalizing result with
    | nil =>
      cases result with
      | error e =>
        obtain ⟨before, r, after, hsplit, -⟩ := h
        exact absurd hsplit.symm (List.append_ne_nil_of_right_ne_nil _ (List.cons_ne_nil _ _))
      | ok xs =>
        cases h
        rfl
    | cons r rest ih =>
      cases result with
      | error e =>
        obtain ⟨_ | ⟨b, before⟩, r', after, hsplit, hbefore, hr'⟩ := h
        · cases hsplit
          exact convertAll_cons_of_error hr' _
        · obtain ⟨rfl, rfl⟩ := List.cons.inj hsplit
          rw [List.forall_mem_cons] at hbefore
          obtain ⟨⟨x, hx⟩, hbefore⟩ := hbefore
          have hrest : convertAll convert (before ++ r' :: after) = .error e :=
            ih ⟨before, r', after, rfl, hbefore, hr'⟩
          rw [convertAll_cons_of_ok hx]
          exact congrArg (Except.map (x :: ·)) hrest
      | ok xs =>
        rcases h with _ | ⟨hx, hxs⟩
        have hrest : convertAll convert rest = .ok _ := ih hxs
        rw [convertAll_cons_of_ok hx, hrest]
        rfl
  · rintro rfl
    exact converted_convertAll convert records

end Conversion

section Retrieving

variable {σ α : Type}

/-- **A retrieval of all pages follows the protocol against every backend**: recording its exchanges changes
nothing, they are what the backend answers, without an entity name there are none, and with one they are those
of a scan. A failure of the scan is the result and leaves no records; else its records are converted one by one. -/
theorem retrieve_all_protocol (convert : Record → Except QueryError α) (b : Backend σ) (q : Query) (s : σ) :
    ∃ log, retrieve convert .all b.recorded q (s, []) =
        ((retrieve convert .all b q s).1, q, (retrieve convert .all b q s).2.2, log) ∧
      b.Replies s log (retrieve convert .all b q s).2.2 ∧
      (q.entity.isEmpty = true → log = [] ∧ (retrieve convert .all b q s).1 = .error .unnamedQuery ∧
        QueryError.unnamedQuery.kind = .misuse) ∧
      (q.entity.isEmpty = false → QueryError.pagesExhausted.kind = .backend ∧ ∃ result, ScanProtocol q log result ∧
        (∀ e, result = .error e → (retrieve convert .all b q s).1 = .error e) ∧
        ∀ records, result = .ok records → Converted convert records (retrieve convert .all b q s).1) := by
  cases hname : q.entity.isEmpty with
  | true =>
    rw [retrieve_unnamed hname, retrieve_unnamed hname]
    exact ⟨[], rfl, rfl, fun _ => ⟨rfl, rfl, rfl⟩, nofun⟩
  | false =>
    obtain ⟨log, hrun, hreplies, hrecorded⟩ := scan_recorded b q s []
    rw [retrieve_all_eq hname, retrieve_all_eq hname, hrecorded, List.nil_append]
    refine ⟨log, rfl, hreplies, nofun, fun _ => ⟨rfl, _, hrun.protocol, ?_, ?_⟩⟩
    · intro e hfailed
      rw [hfailed]
      rfl
    · intro records hscanned
      rw [hscanned]
      exact converted_iff.mpr rfl

/-- Two pages from the seventh on, converted to the names of their accounts. A contact on the second one cannot be
converted, and a query without an entity name is not asked at all. -/
theorem retrieve_all_protocol_two_pages :
    let account (name : String) : Record :=
      { logicalName := "account", attributes := .ofList [("name", .string name)] }
    let unread : QueryError := .reported .mapping "not an account"
    let name (r : Record) : Except QueryError Json :=
      if r.logicalName = "account" then .ok (r.value "name") else .error unread
    let first : Page := { records := [account "a", account "b"], more := true, cookie := some "next" }
    let last : Page := { records := [account "c"] }
    let other : Page := { records := [{ logicalName := "contact" }, account "c"] }
    let replay (answers : List Page) : Replay :=
      { answers := answers.map .ok, exhausted := .reported .backend "no answer left" }
    let q : Query := { entity := "account", paging := { pageNumber := 7, cookie := some "start" } }
    let log (last : Page) : List Exchange := [⟨q, .ok first⟩, ⟨q.atPage 8 (some "next"), .ok last⟩]
    retrieve name .all Replay.backend.recorded q (replay [first, last], []) =
        (.ok [.string "a", .string "b", .string "c"], q, replay [], log last) ∧
      ScanProtocol q (log last) (.ok [account "a", account "b", account "c"]) ∧
      Converted name [account "a", account "b", account "c"] (.ok [.string "a", .string "b", .string "c"]) ∧
      retrieve name .all Replay.backend.recorded q (replay [first, other], []) =
        (.error unread, q, replay [], log other) ∧
      retrieve name .all Replay.backend.recorded { q with entity := "" } (replay [first, last], []) =
        (.error .unnamedQuery, { q with entity := "" }, replay [first, last], []) := by
  intro account unread name first last other replay q log
  have hfirst (page : Page) : Replay.backend q (replay [first, page]) = (.ok first, replay [page]) := rfl
  have hsecond (page : Page) : Replay.backend (q.nextPage first.cookie) (replay [page]) = (.ok page, replay []) := rfl
  have hrecorded (page : Page) (hmore : page.more = false) :
      retrieve name .all Replay.backend.recorded q (replay [first, page], []) =
        (convertAll name (first.records ++ page.records), q, replay [], log page) := by
    rw [retrieve_all_eq rfl, scan_of_more (recorded_of (hfirst page) []) rfl (by decide),
      scan_of_last (recorded_of (hsecond page) _) hmore]
    rfl
  obtain ⟨log', hrun, -, -, hnamed⟩ := retrieve_all_protocol name Replay.backend q (replay [first, last])
  obtain ⟨-, result, hscan, -, hconverted⟩ := hnamed rfl
  rw [hrecorded last rfl, Prod.mk.injEq, Prod.mk.injEq, Prod.mk.injEq] at hrun
  obtain ⟨houtcome, -, -, rfl⟩ := hrun
  -- the last answer is a page without a next one, so it is the third way in which a scan can end
  have hresult : result = .ok [account "a", account "b", account "c"] := by
    obtain ⟨x, hlast, hends⟩ := hscan.ends
    cases hlast
    rcases hends with ⟨e, he, -⟩ | ⟨page, hpage, hmore, -⟩ | ⟨page, -, -, hok⟩
    · cases he
    · cases hpage
      cases hmore
    · exact hok
  have hnames := hconverted _ hresult
  rw [← houtcome] at hnames
  rw [hresult] at hscan
  exact ⟨hrecorded last rfl, hscan, hnames, hrecorded other rfl, retrieve_unnamed rfl _ _ _ _⟩

end Retrieving

end EntityQuery
