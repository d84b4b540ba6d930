import EntityQuery.Proofs.Retrieval.Calls
import EntityQuery.Proofs.Retrieval.TimedMap

/-!
# Results that are fetched once

Readers, each with records of its own type, make cached calls through one cache in memory, which is empty at first.
The backends are arbitrary and share a state, and each call has its own one: between two calls the answers may
change in any way. No expiry is reached by the clock.

* `CachedCall.trace`, `CachedCall.traceAll`: a call with what it did, and calls one after the other;
* `CachedTrace.Way`, `CachedCall.way_of_live`: the ways of a call whose entry, if there is one, is live;
* `Kept`: the entries of the cache are the records that calls have found so far;
* `CachedTrace.Way.kept`, `kept_of_traceAll`: that is so after one more call, and before each call of a run;
* `cached_results_fetched_once`: only the calls up to the first one that succeeds ask the backend.
-/

namespace EntityQuery

/-- A cached call of a reader. `now` is what the clock reads when the cache is looked up. -/
structure CachedCall (σ ι : Type) where
  reader : ι
  backend : Backend σ
  query : Query
  extent : Extent
  expires : Instant
  now : Instant

def CachedCall.key {σ ι : Type} (x : CachedCall σ ι) : String := x.query.cacheKey x.extent

/-- What a cached call did: the records that it found, before and after their conversion, what it asked of the
backend, and the backend's state and the cache before and after it. -/
structure CachedTrace (σ : Type) {ι : Type} (β : ι → Type) where
  call : CachedCall σ ι
  found : Except QueryError (List Record)
  outcome : Except QueryError (List (β call.reader))
  exchanges : List Exchange
  before : σ × TimedCache
  after : σ × TimedCache

/-- The ways of a call whose entry, if there is one, is live. -/
inductive CachedTrace.Way {σ ι : Type} {β : ι → Type} (t : CachedTrace σ β) : Prop where
  | hit {e : CacheEntry} (hentry : t.before.2.entries.get? t.call.key = some e) (hfound : t.found = .ok e.records)
    (hasked : t.exchanges = []) (hafter : t.after = t.before)
  | failed {e : QueryError} (hnone : t.before.2.entries.get? t.call.key = none)
    (hfetch : t.found = (fetch t.call.extent t.call.backend t.call.query t.before.1).1) (hfound : t.found = .error e)
    (hafter : t.after.2 = t.before.2)
  | kept {records : List Record} (hnone : t.before.2.entries.get? t.call.key = none)
    (hfetch : t.found = (fetch t.call.extent t.call.backend t.call.query t.before.1).1)
    (hfound : t.found = .ok records) (hafter : t.after.2 = t.before.2.set t.call.key records t.call.expires)

section Runs

variable {σ ι : Type} {β : ι → Type} (convert : ∀ i, Record → Except QueryError (β i))

namespace CachedCall

/-- Makes the call, and records it. -/
def trace (x : CachedCall σ ι) (s : σ) (c : TimedCache) : CachedTrace σ β :=
  let call : Call TimedCache := .cached x.extent (.timed x.now) x.expires
  let done := retrieveCached (convert x.reader) x.extent x.backend (.timed x.now) x.expires x.query s c
  { call := x
    found := (fetchCached x.extent x.backend (.timed x.now) x.expires x.query s c).1
    outcome := done.1
    exchanges := (call.trace (convert x.reader) x.backend x.query s c).1.exchanges
    before := (s, c)
    after := done.2.2 }

/-- Makes calls one after the other, and records them. -/
def traceAll : List (CachedCall σ ι) → σ → TimedCache → List (CachedTrace σ β)
  | [], _, _ => []
  | x :: rest, s, c => x.trace convert s c :: traceAll rest (x.trace convert s c).after.1 (x.trace convert s c).after.2

variable {x : CachedCall σ ι} {s : σ} {c : TimedCache}

/-- The outcome is the conversion of what was found, to the type of the reader. -/
theorem trace_outcome : (x.trace convert s c).outcome =
    (x.trace convert s c).found.bind (convertAll (convert x.reader)) := rfl

theorem trace_of_run {found : Except QueryError (List Record)} {s' : σ} {c' : TimedCache}
    (h : CachedRun x.extent x.backend (.timed x.now) x.expires x.query s c found s' c') :
    (x.trace convert s c).found = found ∧ (x.trace convert s c).after = (s', c') := by
  constructor
  · rw [trace, h.fetchCached_eq]
  · rw [trace, retrieveCached, h.fetchCached_eq]

theorem exchanges_of_hit {records : List Record} {c' : TimedCache}
    (hget : (Cache.timed x.now).get x.key c = (.ok (some records), c')) :
    (x.trace convert s c).exchanges = [] := by
  have hrecorded : (Cache.timed x.now).recorded.get x.key (c, []) = (.ok (some records), c', [x.key]) := by
    rw [Cache.recorded_get, hget]
    rfl
  have hrun : CachedRun x.extent x.backend.recorded (Cache.timed x.now).recorded x.expires x.query (s, []) (c, [])
      (.ok records) (s, []) (c', [x.key]) := .hit hrecorded
  show ((Call.cached x.extent (.timed x.now) x.expires).trace (convert x.reader) x.backend x.query s c).1.exchanges = []
  rw [Call.trace, Call.recorded, Call.perform, retrieveCached, hrun.fetchCached_eq]

/-- A call whose entry, if there is one, is live goes one of the three ways. -/
theorem way_of_live (hlive : ∀ e, c.entries.get? x.key = some e → x.now < e.expires) :
    (x.trace convert s c).Way := by
  cases hentry : c.entries.get? x.key with
  | some e =>
    have hnow : e.isLive x.now = true := CacheEntry.isLive_iff.mpr (hlive e hentry)
    have hget : (Cache.timed x.now).get x.key c = (.ok (some e.records), c) := by
      simp [Cache.timed, TimedCache.get, hentry, hnow]
    obtain ⟨hfound, hafter⟩ := trace_of_run (s := s) convert (.hit hget)
    exact .hit hentry hfound (exchanges_of_hit convert hget) hafter
  | none =>
    have hget : (Cache.timed x.now).get x.key c = (.ok none, c) := by
      simp [Cache.timed, TimedCache.get, hentry]
    obtain ⟨answer, s', hfetch⟩ := exists_fetch x.extent x.backend x.query s
    have hanswer : (fetch x.extent x.backend x.query s).1 = answer := congrArg Prod.fst hfetch
    cases answer with
    | error e =>
      obtain ⟨hfound, hafter⟩ := trace_of_run convert (.failed hget hfetch)
      have hstays : (x.trace convert s c).after.2 = c := congrArg Prod.snd hafter
      exact .failed hentry (hfound.trans hanswer.symm) hfound hstays
    | ok records =>
      have hset : (Cache.timed x.now).set x.key records x.expires c = (.ok (), c.set x.key records x.expires) := rfl
      obtain ⟨hfound, hafter⟩ := trace_of_run convert (.kept hget hfetch hset)
      exact .kept hentry (hfound.trans hanswer.symm) hfound (congrArg Prod.snd hafter)

end CachedCall

namespace CachedTrace.Way

variable {t : CachedTrace σ β}

/-- An entry is what the call finds, without a request. -/
theorem of_entry (h : t.Way) {e : CacheEntry} (hentry : t.before.2.entries.get? t.call.key = some e) :
    t.found = .ok e.records ∧ t.exchanges = [] ∧ t.after = t.before := by
  cases h with
  | hit hentry' hfound hasked hafter =>
    obtain rfl := Option.some.inj (hentry'.symm.trans hentry)
    exact ⟨hfound, hasked, hafter⟩
  | failed hnone _ _ _ => exact absurd (hnone.symm.trans hentry) (by simp)
  | kept hnone _ _ _ => exact absurd (hnone.symm.trans hentry) (by simp)

/-- Without an entry the call is a retrieval whose records are kept. -/
theorem of_none (h : t.Way) (hnone : t.before.2.entries.get? t.call.key = none) :
    t.found = (fetch t.call.extent t.call.backend t.call.query t.before.1).1 ∧
      ∀ records, t.found = .ok records → t.after.2 = t.before.2.set t.call.key records t.call.expires := by
  cases h with
  | hit hentry _ _ _ => exact absurd (hnone.symm.trans hentry) (by simp)
  | failed _ hfetch hfailed _ =>
    refine ⟨hfetch, ?_⟩
    intro records hfound
    rw [hfailed] at hfound
    cases hfound
  | kept _ hfetch hstored hafter =>
    refine ⟨hfetch, ?_⟩
    intro records hfound
    rw [hstored] at hfound
    cases hfound
    exact hafter

theorem of_error (h : t.Way) {e : QueryError} (hfailed : t.found = .error e) : t.after.2 = t.before.2 := by
  cases h with
  | hit _ _ _ hafter => rw [hafter]
  | failed _ _ _ hafter => exact hafter
  | kept _ _ hfound _ =>
    rw [hfailed] at hfound
    cases hfound

theorem entry_of_ok (h : t.Way) {records : List Record} (hfound : t.found = .ok records) :
    ∃ e, t.after.2.entries.get? t.call.key = some e ∧ e.records = records := by
  cases hentry : t.before.2.entries.get? t.call.key with
  | some e =>
    obtain ⟨hfound', -, hafter⟩ := h.of_entry hentry
    rw [hfound] at hfound'
    cases hfound'
    rw [hafter]
    exact ⟨e, hentry, rfl⟩
  | none =>
    rw [(h.of_none hentry).2 records hfound, TimedCache.set, SortedMap.get?_insert, if_pos rfl]
    exact ⟨_, rfl, rfl⟩

/-- No entry is lost or changed. -/
theorem entry_stays (h : t.Way) {key : String} {e : CacheEntry} (hentry : t.before.2.entries.get? key = some e) :
    t.after.2.entries.get? key = some e := by
  cases h with
  | hit _ _ _ hafter => rwa [hafter]
  | failed _ _ _ hafter => rwa [hafter]
  | kept hnone _ _ hafter =>
    have hother : key ≠ t.call.key := by
      intro hkey
      rw [hkey, hnone] at hentry
      cases hentry
    rwa [hafter, TimedCache.set, SortedMap.get?_insert, if_neg hother]

/-- An entry was there before, or is what the call has found. -/
theorem entry_before (h : t.Way) {key : String} {e : CacheEntry} (hentry : t.after.2.entries.get? key = some e) :
    t.before.2.entries.get? key = some e ∨
      t.call.key = key ∧ t.found = .ok e.records ∧ e.expires = t.call.expires := by
  cases h with
  | hit _ _ _ hafter => exact .inl (hafter ▸ hentry)
  | failed _ _ _ hafter => exact .inl (hafter ▸ hentry)
  | kept _ _ hfound hafter =>
    rw [hafter, TimedCache.set, SortedMap.get?_insert] at hentry
    split_ifs at hentry with hkey
    · cases hentry
      exact .inr ⟨hkey.symm, hfound, rfl⟩
    · exact .inl hentry

end CachedTrace.Way

/-! ## The entries of the cache -/

/-- The entries are the records that earlier calls have found, with the expiries of calls of the run. -/
structure Kept (calls : List (CachedCall σ ι)) (past : List (CachedTrace σ β)) (c : TimedCache) : Prop where
  expiry : ∀ key e, c.entries.get? key = some e → ∃ x ∈ calls, e.expires = x.expires
  origin : ∀ key e, c.entries.get? key = some e → ∃ u ∈ past, u.call.key = key ∧ u.found = .ok e.records
  stored : ∀ u ∈ past, ∀ records, u.found = .ok records →
    ∃ e, c.entries.get? u.call.key = some e ∧ e.records = records

namespace Kept

variable {convert} {calls : List (CachedCall σ ι)} {past : List (CachedTrace σ β)} {c : TimedCache}

theorem empty (calls : List (CachedCall σ ι)) : Kept (β := β) calls [] {} where
  expiry key e h := absurd h (by simp [SortedMap.get?])
  origin key e h := absurd h (by simp [SortedMap.get?])
  stored u hu := absurd hu List.not_mem_nil

/-- After one more call, the entries are still what was found. -/
theorem step {t : CachedTrace σ β} (h : Kept calls past t.before.2) (hway : t.Way) (hcall : t.call ∈ calls) :
    Kept calls (past ++ [t]) t.after.2 where
  expiry key e hentry := by
    rcases hway.entry_before hentry with hentry | ⟨-, -, hexpires⟩
    · exact h.expiry key e hentry
    · exact ⟨t.call, hcall, hexpires⟩
  origin key e hentry := by
    rcases hway.entry_before hentry with hentry | ⟨hkey, hfound, -⟩
    · obtain ⟨u, hu, hkey, hfound⟩ := h.origin key e hentry
      exact ⟨u, List.mem_append_left _ hu, hkey, hfound⟩
    · exact ⟨t, by simp, hkey, hfound⟩
  stored u hu records hfound := by
    rcases List.mem_append.mp hu with hu | hu
    · obtain ⟨e, hentry, hrecords⟩ := h.stored u hu records hfound
      exact ⟨e, hway.entry_stays hentry, hrecords⟩
    · obtain rfl := List.mem_singleton.mp hu
      exact hway.entry_of_ok hfound

theorem live (h : Kept calls past c) (hclock : ∀ x ∈ calls, ∀ y ∈ calls, y.now < x.expires) {y : CachedCall σ ι}
    (hy : y ∈ calls) {key : String} {e : CacheEntry} (hentry : c.entries.get? key = some e) : y.now < e.expires := by
  obtain ⟨x, hx, hexpires⟩ := h.expiry key e hentry
  rw [hexpires]
  exact hclock x hx y hy

end Kept

section Clock

variable {calls : List (CachedCall σ ι)} (hclock : ∀ x ∈ calls, ∀ y ∈ calls, y.now < x.expires)
include hclock

/-- Before each call of a run, the entries are what was found. -/
theorem kept_of_traceAll {seen : List (CachedTrace σ β)} {c : TimedCache} (h : Kept calls seen c)
    {rest : List (CachedCall σ ι)} (hrest : ∀ x ∈ rest, x ∈ calls) {s : σ} {past later : List (CachedTrace σ β)}
    {t : CachedTrace σ β} (hsplit : CachedCall.traceAll convert rest s c = past ++ t :: later) :
    t.call ∈ calls ∧ t = t.call.trace convert t.before.1 t.before.2 ∧ Kept calls (seen ++ past) t.before.2 := by
  induction rest generalizing seen s c past with
  | nil => simp [CachedCall.traceAll] at hsplit
  | cons x rest ih =>
    rw [CachedCall.traceAll] at hsplit
    have hx : x ∈ calls := hrest x List.mem_cons_self
    cases past with
    | nil =>
      obtain ⟨rfl, -⟩ := List.cons_eq_cons.mp hsplit
      rw [List.append_nil]
      exact ⟨hx, rfl, h⟩
    | cons u past =>
      obtain ⟨rfl, htail⟩ := List.cons_eq_cons.mp hsplit
      have hway : (x.trace convert s c).Way := CachedCall.way_of_live convert fun _ => h.live hclock hx
      have hnext := Kept.step (t := x.trace convert s c) h hway hx
      have hlater := ih hnext (fun y hy => hrest y (List.mem_cons_of_mem _ hy)) htail
      rwa [List.append_assoc] at hlater

end Clock

/-! ## Runs -/

/-- What a call did after others, of which those with its key decide. -/
structure FetchedOnce (past : List (CachedTrace σ β)) (t : CachedTrace σ β) : Prop where
  /-- After a call that has found records, the same records are found, and the backend is not asked. -/
  served : ∀ u ∈ past, u.call.key = t.call.key → ∀ records, u.found = .ok records →
    t.found = .ok records ∧ t.exchanges = [] ∧ t.after = t.before
  /-- After failures only, the call is a retrieval, and records that it finds are kept. -/
  fetched : (∀ u ∈ past, u.call.key = t.call.key → ∃ e, u.found = .error e) →
    t.found = (fetch t.call.extent t.call.backend t.call.query t.before.1).1 ∧
      ∀ records, t.found = .ok records → t.after.2 = t.before.2.set t.call.key records t.call.expires
  /-- A failure before the conversion leaves the cache as it was. -/
  failed : ∀ e, t.found = .error e → t.outcome = .error e ∧ t.after.2 = t.before.2
  /-- Records that are found are in the cache and converted, also if that fails. -/
  converted : ∀ records, t.found = .ok records →
    t.outcome = convertAll (convert t.call.reader) records ∧
      ∃ e, t.after.2.entries.get? t.call.key = some e ∧ e.records = records

/-- **A result is fetched once, and failures are not kept.** While no expiry is reached, of the calls with one key only
those up to the first one that finds records ask the backend, and all later ones give the records found then, each
converted for its own reader. -/
theorem cached_results_fetched_once (calls : List (CachedCall σ ι))
    (hclock : ∀ x ∈ calls, ∀ y ∈ calls, y.now < x.expires) (s : σ) (past later : List (CachedTrace σ β))
    (t : CachedTrace σ β) (hsplit : CachedCall.traceAll convert calls s {} = past ++ t :: later) :
    FetchedOnce convert past t := by
  obtain ⟨hcall, htrace, hkept⟩ := kept_of_traceAll convert hclock (Kept.empty calls) (fun _ hx => hx) hsplit
  rw [List.nil_append] at hkept
  have hway : t.Way := htrace ▸ CachedCall.way_of_live convert fun _ => hkept.live hclock hcall
  have houtcome : t.outcome = t.found.bind (convertAll (convert t.call.reader)) := by
    rw [htrace]
    exact CachedCall.trace_outcome convert
  constructor
  · intro u hu hkey records hfound
    obtain ⟨e, hentry, rfl⟩ := hkept.stored u hu records hfound
    rw [hkey] at hentry
    exact hway.of_entry hentry
  · intro hfailures
    refine hway.of_none (Option.eq_none_iff_forall_ne_some.mpr ?_)
    -- an entry would be what an earlier call has found
    intro e hentry
    obtain ⟨u, hu, hkey, hfound⟩ := hkept.origin _ e hentry
    obtain ⟨failure, hfailed⟩ := hfailures u hu hkey
    rw [hfound] at hfailed
    cases hfailed
  · intro e hfailed
    rw [houtcome, hfailed]
    exact ⟨rfl, hway.of_error hfailed⟩
  · intro records hfound
    rw [houtcome, hfound]
    exact ⟨rfl, hway.entry_of_ok hfound⟩

/-- Three calls of one query. The first fails, the second keeps the records although its reader cannot convert them,
and the third gives them to another reader without a request. -/
theorem cached_results_fetched_once_three :
    let all : Query := { entity := "account", columns := .all }
    let page : Page := { records := [{ logicalName := "account" }] }
    let unread : QueryError := .reported .mapping "unread"
    let down : QueryError := .reported .backend "down"
    let noon : Instant := ⟨43200, 0, by decide, by decide⟩
    let convert : Bool → Record → Except QueryError Record := fun reads r => if reads then .ok r else .error unread
    let call (reader : Bool) : CachedCall Replay Bool :=
      { reader, backend := Replay.backend, query := all, extent := .page, expires := .last, now := noon }
    let calls := [call true, call false, call true]
    let s : Replay := { answers := [.error down, .ok page], exhausted := down }
    let t₁ := (call true).trace convert s {}
    let t₂ := (call false).trace convert t₁.after.1 t₁.after.2
    let t₃ := (call true).trace convert t₂.after.1 t₂.after.2
    (∀ x ∈ calls, ∀ y ∈ calls, y.now < x.expires) ∧ CachedCall.traceAll convert calls s {} = [t₁, t₂, t₃] ∧
      t₁.outcome = .error down ∧ t₁.after.2 = {} ∧
      t₂.found = .ok page.records ∧ t₂.outcome = .error unread ∧
      t₃.found = .ok page.records ∧ t₃.outcome = .ok page.records ∧ t₃.exchanges = [] := by
  intro all page unread down noon convert call calls s t₁ t₂ t₃
  have hclock : ∀ x ∈ calls, ∀ y ∈ calls, y.now < x.expires := by
    have hnow : noon < .last := by decide
    simp [calls, call, hnow]
  have htraces : CachedCall.traceAll convert calls s {} = [t₁, t₂, t₃] := rfl
  have hfirst := cached_results_fetched_once convert calls hclock s [] [t₂, t₃] t₁ htraces
  have hsecond := cached_results_fetched_once convert calls hclock s [t₁] [t₃] t₂ htraces
  have hthird := cached_results_fetched_once convert calls hclock s [t₁, t₂] [] t₃ htraces
  have hdown : t₁.found = .error down := rfl
  have hfound : t₂.found = .ok page.records := rfl
  obtain ⟨hserved, hasked, -⟩ := hthird.served t₂ (by simp) rfl page.records hfound
  obtain ⟨houtcome, hempty⟩ := hfirst.failed down hdown
  exact ⟨hclock, htraces, houtcome, hempty, hfound, (hsecond.converted _ hfound).1, hserved,
    (hthird.converted _ hserved).1, hasked⟩

end Runs

end EntityQuery
