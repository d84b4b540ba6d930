import EntityQuery.Proofs.Retrieval.Protocol
import EntityQuery.Retrieval.Cached

/-!
# Calls on one query

A query is retrieved any number of times, with and without a cache, and each call starts from the query that
the call before has left. The backend and the caches are arbitrary and may fail at any point. Recording what a
call asks of them shows what of the query it has seen.

* `fetch_recorded`: a retrieval asks first for the query itself;
* `CachedRun`: the ways that a cached retrieval can go, one constructor for each way out;
* `Call.perform`, `Call.trace`: a call, and the same with its exchanges and its keys;
* `trace_eq`: a call leaves the query as it was, and all that it asks for is made from the query;
* `calls_leave_query`: the same of any number of calls.
-/

namespace EntityQuery

variable {σ κ : Type}

/-! ## One retrieval -/

/-- A retrieval asks first for the query itself, and a query with an entity name is asked for. -/
theorem fetch_recorded (extent : Extent) (b : Backend σ) (q : Query) (s : σ) (log : List Exchange) :
    ∃ added, fetch extent b.recorded q (s, log) =
        ((fetch extent b q s).1, q, (fetch extent b q s).2.2, log ++ added) ∧
      (∀ x, added.head? = some x → x.request = q) ∧ (q.entity.isEmpty = false → added ≠ []) := by
  cases hname : q.entity.isEmpty with
  | true =>
    refine ⟨[], ?_, by simp, by simp⟩
    rw [List.append_nil]
    cases extent with
    | page => rw [fetch, fetchPage, fetch, fetchPage, if_pos hname, if_pos hname]
    | all => rw [fetch, fetchAll, fetch, fetchAll, if_pos hname, if_pos hname]
  | false =>
    have hnamed : ¬ q.entity.isEmpty = true := by simp [hname]
    cases extent with
    | page =>
      refine ⟨[⟨q, (b q s).1⟩], ?_, ?_, fun _ => List.cons_ne_nil _ _⟩
      · rw [fetch, fetchPage, fetch, fetchPage, if_neg hnamed, if_neg hnamed, recorded_of rfl]
      · rintro x ⟨⟩
        rfl
    | all =>
      obtain ⟨added, hrun, -, hscan⟩ := scan_recorded b q s log
      refine ⟨added, ?_, ?_, fun _ => List.ne_nil_of_length_pos hrun.length_pos⟩
      · rw [fetch, fetchAll_eq hname, fetch, fetchAll_eq hname, hscan]
      · intro x hx
        rw [List.head?_eq_getElem?] at hx
        rw [hrun.request_eq 0 x hx]
        exact q.atPage_self

/-- Works as a cache does, and notes every key that it is given, in order. -/
def Cache.recorded (cache : Cache κ) : Cache (κ × List String) where
  get key c :=
    match cache.get key c.1 with
    | (found, state) => (found, state, c.2 ++ [key])
  set key records expires c :=
    match cache.set key records expires c.1 with
    | (kept, state) => (kept, state, c.2 ++ [key])

theorem Cache.recorded_get (cache : Cache κ) (key : String) (c : κ) (noted : List String) :
    cache.recorded.get key (c, noted) = ((cache.get key c).1, (cache.get key c).2, noted ++ [key]) := rfl

theorem Cache.recorded_set (cache : Cache κ) (key : String) (records : List Record) (expires : Instant) (c : κ)
    (noted : List String) : cache.recorded.set key records expires (c, noted) =
      ((cache.set key records expires c).1, (cache.set key records expires c).2, noted ++ [key]) := rfl

/-- The ways of a cached retrieval. `q.cacheKey extent` is the one key that it uses, and the query is as it was
on each of them. -/
inductive CachedRun (extent : Extent) (b : Backend σ) (cache : Cache κ) (expires : Instant) (q : Query) (s : σ)
    (c : κ) : Except QueryError (List Record) → σ → κ → Prop where
  | unreadable {e : QueryError} {c' : κ} (hget : cache.get (q.cacheKey extent) c = (.error e, c')) :
    CachedRun extent b cache expires q s c (.error e) s c'
  | hit {records : List Record} {c' : κ} (hget : cache.get (q.cacheKey extent) c = (.ok (some records), c')) :
    CachedRun extent b cache expires q s c (.ok records) s c'
  | failed {e : QueryError} {s' : σ} {c' : κ} (hget : cache.get (q.cacheKey extent) c = (.ok none, c'))
    (hfetch : fetch extent b q s = (.error e, q, s')) : CachedRun extent b cache expires q s c (.error e) s' c'
  | unwritable {records : List Record} {e : QueryError} {s' : σ} {c' c'' : κ}
    (hget : cache.get (q.cacheKey extent) c = (.ok none, c'))
    (hfetch : fetch extent b q s = (.ok records, q, s'))
    (hset : cache.set (q.cacheKey extent) records expires c' = (.error e, c'')) :
    CachedRun extent b cache expires q s c (.error e) s' c''
  | kept {records : List Record} {s' : σ} {c' c'' : κ}
    (hget : cache.get (q.cacheKey extent) c = (.ok none, c'))
    (hfetch : fetch extent b q s = (.ok records, q, s'))
    (hset : cache.set (q.cacheKey extent) records expires c' = (.ok (), c'')) :
    CachedRun extent b cache expires q s c (.ok records) s' c''

section CachedRuns

variable {extent : Extent} {b : Backend σ} {cache : Cache κ} {expires : Instant} {q : Query} {s s' : σ} {c c' : κ}
  {outcome : Except QueryError (List Record)}

/-- A cached retrieval goes one of these ways. -/
theorem exists_cachedRun (extent : Extent) (b : Backend σ) (cache : Cache κ) (expires : Instant) (q : Query)
    (s : σ) (c : κ) : ∃ outcome s' c', CachedRun extent b cache expires q s c outcome s' c' := by
  obtain ⟨found, c', hget⟩ : ∃ found c', cache.get (q.cacheKey extent) c = (found, c') := ⟨_, _, rfl⟩
  rcases found with e | _ | records
  · exact ⟨_, _, _, .unreadable hget⟩
  · obtain ⟨answer, s', hfetch⟩ := exists_fetch extent b q s
    rcases answer with e | records
    · exact ⟨_, _, _, .failed hget hfetch⟩
    · obtain ⟨done, c'', hset⟩ : ∃ done c'', cache.set (q.cacheKey extent) records expires c' = (done, c'') :=
        ⟨_, _, rfl⟩
      rcases done with e | _
      · exact ⟨_, _, _, .unwritable hget hfetch hset⟩
      · exact ⟨_, _, _, .kept hget hfetch hset⟩
  · exact ⟨_, _, _, .hit hget⟩

theorem CachedRun.fetchCached_eq (h : CachedRun extent b cache expires q s c outcome s' c') :
    fetchCached extent b cache expires q s c = (outcome, q, s', c') := by
  rw [fetchCached]
  cases h with
  | unreadable hget => rw [hget]
  | hit hget => rw [hget]
  | failed hget hfetch => rw [hget, hfetch]
  | unwritable hget hfetch hset => rw [hget, hfetch]; dsimp only; rw [hset]
  | kept hget hfetch hset => rw [hget, hfetch]; dsimp only; rw [hset]

/-- A recorded run is the run itself. It asks first for the query, and uses its key alone, once at least. -/
theorem CachedRun.recorded (h : CachedRun extent b cache expires q s c outcome s' c') (log : List Exchange)
    (noted : List String) :
    ∃ added keys, CachedRun extent b.recorded cache.recorded expires q (s, log) (c, noted) outcome
        (s', log ++ added) (c', noted ++ keys) ∧
      (∀ x, added.head? = some x → x.request = q) ∧ keys ≠ [] ∧ ∀ key ∈ keys, key = q.cacheKey extent := by
  have hlookup {found : Except QueryError (Option (List Record))} {c' : κ}
      (hget : cache.get (q.cacheKey extent) c = (found, c')) :
      cache.recorded.get (q.cacheKey extent) (c, noted) = (found, c', noted ++ [q.cacheKey extent]) := by
    rw [Cache.recorded_get, hget]
  have hwrite {records : List Record} {c' c'' : κ} {done : Except QueryError Unit}
      (hset : cache.set (q.cacheKey extent) records expires c' = (done, c'')) :
      cache.recorded.set (q.cacheKey extent) records expires (c', noted ++ [q.cacheKey extent]) =
        (done, c'', noted ++ [q.cacheKey extent, q.cacheKey extent]) := by
    rw [Cache.recorded_set, hset, List.append_assoc]
    rfl
  have hone : ∀ key ∈ [q.cacheKey extent], key = q.cacheKey extent := by simp
  have htwo : ∀ key ∈ [q.cacheKey extent, q.cacheKey extent], key = q.cacheKey extent := by simp
  have hnone : ∀ x, ([] : List Exchange).head? = some x → x.request = q := by simp
  obtain ⟨added, hrecorded, hfirst, -⟩ := fetch_recorded extent b q s log
  cases h with
  | unreadable hget =>
    refine ⟨[], _, ?_, hnone, List.cons_ne_nil _ _, hone⟩
    rw [List.append_nil]
    exact .unreadable (hlookup hget)
  | hit hget =>
    refine ⟨[], _, ?_, hnone, List.cons_ne_nil _ _, hone⟩
    rw [List.append_nil]
    exact .hit (hlookup hget)
  | failed hget hfetch =>
    rw [hfetch] at hrecorded
    exact ⟨added, _, .failed (hlookup hget) hrecorded, hfirst, List.cons_ne_nil _ _, hone⟩
  | unwritable hget hfetch hset =>
    rw [hfetch] at hrecorded
    exact ⟨added, _, .unwritable (hlookup hget) hrecorded (hwrite hset), hfirst, List.cons_ne_nil _ _, htwo⟩
  | kept hget hfetch hset =>
    rw [hfetch] at hrecorded
    exact ⟨added, _, .kept (hlookup hget) hrecorded (hwrite hset), hfirst, List.cons_ne_nil _ _, htwo⟩

end CachedRuns

/-! ## Calls -/

/-- A retrieval, plain or through a cache. -/
inductive Call (κ : Type) where
  | plain (extent : Extent)
  | cached (extent : Extent) (cache : Cache κ) (expires : Instant)

/-- What a call gave, what it asked of the backend, and the keys that it gave to its cache. -/
structure CallTrace (κ α : Type) where
  call : Call κ
  outcome : Except QueryError (List α)
  exchanges : List Exchange
  keys : List String

namespace Call

variable {α : Type} (convert : Record → Except QueryError α) (b : Backend σ)

def extent : Call κ → Extent
  | .plain extent => extent
  | .cached extent _ _ => extent

/-- Makes the call. -/
def perform : Call κ → Query → σ → κ → Except QueryError (List α) × Query × σ × κ
  | .plain extent, q, s, c =>
    match retrieve convert extent b q s with
    | (outcome, q, s) => (outcome, q, s, c)
  | .cached extent cache expires, q, s, c => retrieveCached convert extent b cache expires q s c

/-- The call with a cache that notes its keys. -/
def recorded : Call κ → Call (κ × List String)
  | .plain extent => .plain extent
  | .cached extent cache expires => .cached extent cache.recorded expires

/-- Makes the call and records it. -/
def trace (call : Call κ) (q : Query) (s : σ) (c : κ) : CallTrace κ α × Query × σ × κ :=
  match call.recorded.perform convert b.recorded q (s, []) (c, []) with
  | (outcome, q, (s, exchanges), c, keys) => ({ call, outcome, exchanges, keys }, q, s, c)

/-- Makes calls one after the other, each with the query that the one before it has left. -/
def performAll : List (Call κ) → Query → σ → κ → List (Except QueryError (List α)) × Query × σ × κ
  | [], q, s, c => ([], q, s, c)
  | call :: rest, q, s, c =>
    match call.perform convert b q s c with
    | (outcome, q, s, c) =>
      match performAll rest q s c with
      | (outcomes, q, s, c) => (outcome :: outcomes, q, s, c)

/-- Makes calls one after the other and records them. -/
def traceAll : List (Call κ) → Query → σ → κ → List (CallTrace κ α) × Query × σ × κ
  | [], q, s, c => ([], q, s, c)
  | call :: rest, q, s, c =>
    match call.trace convert b q s c with
    | (made, q, s, c) =>
      match traceAll rest q s c with
      | (traces, q, s, c) => (made :: traces, q, s, c)

end Call

/-- All that a call asked for was made from a query. -/
structure CallTrace.MadeFrom {κ α : Type} (q : Query) (t : CallTrace κ α) : Prop where
  /-- The first request is the query, page number and cookie included. -/
  first : ∀ x, t.exchanges.head? = some x → x.request = q
  /-- Every key is that of the query for the extent of the call. -/
  key : ∀ key ∈ t.keys, key = q.cacheKey t.call.extent
  /-- A plain call of a query with an entity name asks the backend, and a cached one its cache. -/
  asks : match t.call with
    | .plain _ => q.entity.isEmpty = false → t.exchanges ≠ []
    | .cached _ _ _ => t.keys ≠ []

section Calls

variable {α : Type} (convert : Record → Except QueryError α) (b : Backend σ)

/-- **A call leaves the query as it was**, recording it changes nothing, and what it asks for is the query's. -/
theorem trace_eq (call : Call κ) (q : Query) (s : σ) (c : κ) :
    ∃ made : CallTrace κ α, call.trace convert b q s c = (made, q, (call.perform convert b q s c).2.2) ∧
      (call.perform convert b q s c).2.1 = q ∧ made.call = call ∧
      made.outcome = (call.perform convert b q s c).1 ∧ made.MadeFrom q := by
  cases call with
  | plain extent =>
    obtain ⟨added, hfetch, hfirst, hasks⟩ := fetch_recorded extent b q s []
    rw [Call.trace, Call.recorded, Call.perform, Call.perform, retrieve, retrieve, hfetch]
    exact ⟨_, rfl, fetch_query extent b q s, rfl, rfl, hfirst, fun _ hkey => absurd hkey List.not_mem_nil, hasks⟩
  | cached extent cache expires =>
    obtain ⟨outcome, s', c', hrun⟩ := exists_cachedRun extent b cache expires q s c
    obtain ⟨added, keys, hrecorded, hfirst, hnonempty, hkeys⟩ := hrun.recorded [] []
    rw [Call.trace, Call.recorded, Call.perform, Call.perform, retrieveCached, retrieveCached,
      hrun.fetchCached_eq, hrecorded.fetchCached_eq]
    exact ⟨_, rfl, rfl, rfl, rfl, hfirst, hkeys, hnonempty⟩

theorem perform_query (call : Call κ) (q : Query) (s : σ) (c : κ) : (call.perform convert b q s c).2.1 = q := by
  obtain ⟨_, _, hquery, -⟩ := trace_eq convert b call q s c
  exact hquery

/-- **Retrievals never change the query.** A call leaves it as it was, and so do any calls one after the other,
plain and cached, whatever the backend and the caches answer. Recording the calls changes nothing, each one that
asks the backend asks first for the query itself, and all their keys are those of the query. -/
theorem calls_leave_query (q : Query) (s : σ) (c : κ) (calls : List (Call κ)) :
    (∀ call : Call κ, (call.perform convert b q s c).2.1 = q) ∧
      (Call.performAll convert b calls q s c).2.1 = q ∧
      (Call.traceAll convert b calls q s c).2 = (Call.performAll convert b calls q s c).2 ∧
      (Call.traceAll convert b calls q s c).1.map CallTrace.call = calls ∧
      (Call.traceAll convert b calls q s c).1.map CallTrace.outcome = (Call.performAll convert b calls q s c).1 ∧
      ∀ t ∈ (Call.traceAll convert b calls q s c).1, t.MadeFrom q := by
  refine ⟨fun call => perform_query convert b call q s c, ?_⟩
  induction calls generalizing s c with
  | nil => exact ⟨rfl, rfl, rfl, rfl, fun _ ht => absurd ht List.not_mem_nil⟩
  | cons call rest ih =>
    obtain ⟨made, htrace, hquery, hcall, houtcome, hmade⟩ := trace_eq convert b call q s c
    obtain ⟨outcome, q', s', c', hperform⟩ :
        ∃ outcome q' s' c', call.perform convert b q s c = (outcome, q', s', c') := ⟨_, _, _, _, rfl⟩
    rw [hperform] at htrace hquery houtcome
    -- the rest of the calls start from the same query
    obtain rfl : q' = q := hquery
    obtain ⟨hleft, hstates, hcalls, houtcomes, hall⟩ := ih s' c'
    rw [Call.performAll, Call.traceAll, hperform, htrace]
    dsimp only
    refine ⟨hleft, hstates, ?_, ?_, ?_⟩
    · rw [List.map_cons, hcall, hcalls]
    · rw [List.map_cons, houtcome, houtcomes]
    · intro t ht
      rcases List.mem_cons.mp ht with rfl | ht
      · exact hmade
      · exact hall t ht

end Calls

end EntityQuery
