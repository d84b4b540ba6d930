import EntityQuery.Proofs.Query.CacheKey
import EntityQuery.Proofs.Retrieval.Scan
import EntityQuery.Proofs.SortedMap
import EntityQuery.Query.Steps
import EntityQuery.Retrieval.Cached
import Mathlib.Logic.Function.Basic

/-!
# Sessions with a shared cache

Any number of named queries are built and retrieved in any order, through one cache and from one store. The
clock may read anything at each look-up, and the cache may be purged and cleared in between.

* `CacheSound`: every entry of a cache is what a retrieval of some query asked before gives, under its key;
* `cacheSound_fetchCached`, `fetchCached_eq`: a cached call keeps that, and gives what a plain one gives;
* `Session.apply`, `Session.run`: the steps of a session;
* `run_inv`: the invariant of a run;
* `cached_retrieval_is_plain`: after any run, a cached call gives what the plain call would give.
-/

namespace EntityQuery

/-! ## Retrievals from a store -/

/-- Answers from records that no request changes. -/
def answerFrom : Backend (List Record) := fun q records => (q.answer records, records)

/-- What a retrieval from records gives. -/
def fetched (extent : Extent) (records : List Record) (q : Query) : Except QueryError (List Record) :=
  (fetch extent answerFrom q records).1

section Stores

variable (extent : Extent) (q : Query)

theorem fetch_answerFrom (records : List Record) :
    fetch extent answerFrom q records = (fetched extent records q, q, records) := by
  -- the answers are those of a backend without a state
  let constant : Backend Unit := fun q s => (q.answer records, s)
  have hsame : fetch extent answerFrom q records =
      ((fetch extent constant q ()).1, (fetch extent constant q ()).2.1, records) :=
    fetch_simulates (b := constant) (f := fun _ => records) (fun _ _ => rfl) extent q ()
  have hstays : (fetch extent answerFrom q records).2.2 = records := congrArg (·.2.2) hsame
  exact Prod.ext rfl (Prod.ext (fetch_query extent answerFrom q records) hstays)

theorem fetch_answerFrom_store (s : Store) : fetch extent answerFrom q s.records =
    ((fetch extent Store.backend q s).1, (fetch extent Store.backend q s).2.1,
      (fetch extent Store.backend q s).2.2.records) :=
  fetch_simulates (f := Store.records) (fun _ _ => rfl) extent q s

/-- A retrieval from a store depends on its records alone. -/
theorem fetch_store (s : Store) : fetch extent Store.backend q s =
    (fetched extent s.records q, q, (fetch extent Store.backend q s).2.2) := by
  have hresult : fetched extent s.records q = (fetch extent Store.backend q s).1 :=
    congrArg (·.1) (fetch_answerFrom_store extent q s)
  exact Prod.ext hresult.symm (Prod.ext (fetch_query extent Store.backend q s) rfl)

theorem records_fetch_store (s : Store) : (fetch extent Store.backend q s).2.2.records = s.records := by
  have hsame := fetch_answerFrom_store extent q s
  rw [fetch_answerFrom] at hsame
  exact (congrArg (·.2.2) hsame).symm

end Stores

/-! ## Entries -/

namespace TimedCache

variable {c c' : TimedCache} {key : String} {now : Instant} {found : Option (List Record)}

theorem subset_of_get (h : c.get key now = (found, c')) : c'.entries.entries ⊆ c.entries.entries := by
  rw [get] at h
  split at h
  · cases h
    exact List.Subset.refl _
  · split_ifs at h
    · cases h
      exact List.Subset.refl _
    · cases h
      exact List.filter_subset_self _

theorem mem_of_get {records : List Record} (h : c.get key now = (some records, c')) :
    ∃ e, (key, e) ∈ c.entries.entries ∧ e.records = records := by
  rw [get] at h
  split at h
  · cases h
  · rename_i e hentry
    split_ifs at h
    · cases h
      exact ⟨e, SortedMap.mem_entries_iff.mpr hentry, rfl⟩
    · cases h

end TimedCache

/-- Every entry holds what a retrieval of a query asked before gives, under the key of that retrieval. -/
def CacheSound (records : List Record) (asked : List Query) (c : TimedCache) : Prop :=
  ∀ key e, (key, e) ∈ c.entries.entries →
    ∃ q ∈ asked, ∃ extent : Extent, key = q.cacheKey extent ∧ fetched extent records q = .ok e.records

namespace CacheSound

variable {records : List Record} {asked : List Query} {c c' : TimedCache} {q : Query} {extent : Extent}

theorem empty (records : List Record) (asked : List Query) : CacheSound records asked {} :=
  fun _ _ h => absurd h List.not_mem_nil

theorem mono (h : CacheSound records asked c) (hsub : c'.entries.entries ⊆ c.entries.entries)
    {asked' : List Query} (hasked : asked ⊆ asked') : CacheSound records asked' c' := by
  intro key e he
  obtain ⟨q, hq, extent, hkey, hfetched⟩ := h key e (hsub he)
  exact ⟨q, hasked hq, extent, hkey, hfetched⟩

theorem set (h : CacheSound records asked c) {kept : List Record} (hkept : fetched extent records q = .ok kept)
    (expires : Instant) : CacheSound records (asked ++ [q]) (c.set (q.cacheKey extent) kept expires) := by
  intro key e he
  rcases SortedMap.eq_or_mem_of_mem_insertEntry he with hnew | hold
  · cases hnew
    exact ⟨q, List.mem_append_right _ List.mem_cons_self, extent, rfl, hkept⟩
  · exact h.mono (List.Subset.refl _) (List.subset_append_left _ _) key e hold

/-- What is found under the key of a query is what a retrieval of it gives. -/
theorem hit (h : CacheSound records asked c) (hsha : ∀ r ∈ asked, q.NoCollision r) {now : Instant}
    {kept : List Record} (hget : c.get (q.cacheKey extent) now = (some kept, c')) :
    fetched extent records q = .ok kept := by
  obtain ⟨e, he, rfl⟩ := TimedCache.mem_of_get hget
  obtain ⟨r, hr, extent', hkey, hfetched⟩ := h _ e he
  obtain ⟨rfl, rfl⟩ := Query.eq_of_cacheKey_eq (hsha r hr) hkey
  exact hfetched

end CacheSound

/-! ## Cached calls -/

/-- A cached call gives the query back and keeps the cache sound. Unless the texts of the query and one asked
before are a collision, it gives what a retrieval gives. -/
theorem fetchCached_store {asked : List Query} {s : Store} {c : TimedCache} (hsound : CacheSound s.records asked c)
    (extent : Extent) (now expires : Instant) (q : Query) :
    ∃ outcome s' c', fetchCached extent Store.backend (Cache.timed now) expires q s c = (outcome, q, s', c') ∧
      s'.records = s.records ∧ CacheSound s.records (asked ++ [q]) c' ∧
      ((∀ r ∈ asked, q.NoCollision r) → outcome = fetched extent s.records q) := by
  rw [fetchCached, Cache.timed]
  dsimp only
  cases hget : c.get (q.cacheKey extent) now with
  | mk found c' =>
    have hleft := hsound.mono (TimedCache.subset_of_get hget) (List.Subset.refl asked)
    have hlater := hleft.mono (List.Subset.refl _) (List.subset_append_left asked [q])
    cases found with
    | some kept => exact ⟨_, _, _, rfl, rfl, hlater, fun hsha => (hsound.hit hsha hget).symm⟩
    | none =>
      have hfetch := fetch_store extent q s
      have hstays := records_fetch_store extent q s
      cases hfetched : fetched extent s.records q with
      | error e =>
        rw [hfetched] at hfetch
        exact ⟨_, _, _, by rw [hfetch], hstays, hlater, fun _ => rfl⟩
      | ok records =>
        rw [hfetched] at hfetch
        exact ⟨_, _, _, by rw [hfetch], hstays, hleft.set hfetched expires, fun _ => rfl⟩

/-! ## Sessions -/

/-- Queries by name, and the cache and the store that they share. -/
structure Session (ι : Type) where
  queries : ι → Query
  cache : TimedCache := {}
  store : Store

/-- A step of a session. Plain retrievals do not use the cache; `now` is what the clock reads. -/
inductive SessionStep (ι : Type) where
  | build (i : ι) (step : QueryStep)
  | plain (i : ι) (extent : Extent)
  | cached (i : ι) (extent : Extent) (expires now : Instant)
  | purge (now : Instant)
  | clear

section Sessions

variable {ι : Type} [DecidableEq ι] {β : ι → Type} (convert : ∀ i, Record → Except QueryError (β i))

namespace Session

/-- Makes a step; the queries convert their records each in its own way. -/
def apply (s : Session ι) : SessionStep ι → Session ι
  | .build i step => { s with queries := Function.update s.queries i (step.apply (s.queries i)) }
  | .plain i extent =>
    let done := retrieve (convert i) extent Store.backend (s.queries i) s.store
    { s with queries := Function.update s.queries i done.2.1, store := done.2.2 }
  | .cached i extent expires now =>
    let done :=
      retrieveCached (convert i) extent Store.backend (Cache.timed now) expires (s.queries i) s.store s.cache
    { queries := Function.update s.queries i done.2.1, store := done.2.2.1, cache := done.2.2.2 }
  | .purge now => { s with cache := (s.cache.purge now).2 }
  | .clear => { s with cache := s.cache.clear }

def run (s : Session ι) (steps : List (SessionStep ι)) : Session ι := steps.foldl (apply convert) s

def askedBy (s : Session ι) : SessionStep ι → List Query
  | .cached i _ _ _ => [s.queries i]
  | _ => []

/-- The queries that steps look up, in order. -/
def asked (s : Session ι) : List (SessionStep ι) → List Query
  | [] => []
  | step :: rest => s.askedBy step ++ asked (s.apply convert step) rest

/-- The records stay, and the cache is sound for the queries that were looked up. -/
structure Inv (records : List Record) (past : List Query) (s : Session ι) : Prop where
  stays : s.store.records = records
  sound : CacheSound records past s.cache

theorem inv_apply {records : List Record} {past : List Query} {s : Session ι} (h : Inv records past s)
    (step : SessionStep ι) : Inv records (past ++ s.askedBy step) (s.apply convert step) := by
  obtain ⟨rfl, hsound⟩ := h
  have hsame : past ++ [] = past := List.append_nil past
  cases step with
  | build i step => exact ⟨rfl, hsame.symm ▸ hsound⟩
  | plain i extent => exact ⟨records_fetch_store extent (s.queries i) s.store, hsame.symm ▸ hsound⟩
  | cached i extent expires now =>
    obtain ⟨outcome, s', c', hcall, hstays, hkept, -⟩ :=
      fetchCached_store hsound extent now expires (s.queries i)
    constructor
    · rw [apply, retrieveCached, hcall]
      exact hstays
    · rw [apply, retrieveCached, hcall]
      exact hkept
  | purge now => exact ⟨rfl, hsound.mono (List.filter_subset_self _) (List.subset_append_left _ _)⟩
  | clear => exact ⟨rfl, CacheSound.empty _ _⟩

theorem inv_run {records : List Record} {past : List Query} {s : Session ι} (h : Inv records past s)
    (steps : List (SessionStep ι)) : Inv records (past ++ s.asked convert steps) (s.run convert steps) := by
  induction steps generalizing past s with
  | nil => exact (List.append_nil past).symm ▸ h
  | cons step rest ih =>
    rw [asked, ← List.append_assoc]
    exact ih (inv_apply convert h step)

end Session

/-- **A cache is not seen.** After any steps of any queries that share a cache, empty at first, a cached call
gives what the plain call would give at that moment, the same records or the same failure. It is assumed that
the canonical text of the query is not in collision with one that was looked up before. -/
theorem cached_retrieval_is_plain (queries : ι → Query) (store : Store) (steps : List (SessionStep ι))
    (i : ι) (extent : Extent) (expires now : Instant)
    (hsha : ∀ r ∈ Session.asked convert { queries, store } steps,
      ((Session.run convert { queries, store } steps).queries i).NoCollision r) :
    let s := Session.run convert { queries, store } steps
    (retrieveCached (convert i) extent Store.backend (Cache.timed now) expires (s.queries i) s.store s.cache).1 =
      (retrieve (convert i) extent Store.backend (s.queries i) s.store).1 := by
  intro s
  have hstart : Session.Inv store.records [] ({ queries, store } : Session ι) := ⟨rfl, CacheSound.empty _ _⟩
  obtain ⟨hstays, hsound⟩ := Session.inv_run convert hstart steps
  rw [List.nil_append, ← hstays] at hsound
  obtain ⟨outcome, s', c', hcall, -, -, houtcome⟩ := fetchCached_store hsound extent now expires (s.queries i)
  rw [retrieveCached, hcall, retrieve, fetch_store, houtcome hsha]

/-- Two queries that are the same: the second finds what the first has kept, by a clock that went back. -/
theorem cached_retrieval_is_plain_shared :
    let all : Query := { entity := "account", columns := .all }
    let convert : Bool → Record → Except QueryError Record := fun _ => .ok
    let noon : Instant := ⟨43200, 0, by decide, by decide⟩
    let morning : Instant := ⟨32400, 0, by decide, by decide⟩
    let start : Session Bool :=
      { queries := fun _ => all
        store := { records := [{ logicalName := "account" }, { logicalName := "contact" }] } }
    let steps : List (SessionStep Bool) := [.cached false .all .last noon, .build false (.top (some 1))]
    let s := start.run convert steps
    (∀ r ∈ start.asked convert steps, (s.queries true).NoCollision r) ∧
      (retrieveCached (convert true) .all Store.backend (Cache.timed morning) .last (s.queries true) s.store
        s.cache).1 = (retrieve (convert true) .all Store.backend (s.queries true) s.store).1 := by
  intro all convert noon morning start steps s
  have hsame : s.queries true = all := rfl
  have hsha : ∀ r ∈ start.asked convert steps, (s.queries true).NoCollision r := by
    intro r hr
    have hr : r = all := List.mem_singleton.mp hr
    rw [hr, hsame]
    exact fun _ => rfl
  exact ⟨hsha, cached_retrieval_is_plain convert start.queries start.store steps true .all .last morning hsha⟩

end Sessions

end EntityQuery
