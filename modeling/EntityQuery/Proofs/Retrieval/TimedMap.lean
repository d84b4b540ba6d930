import EntityQuery.Proofs.SortedMap
import EntityQuery.Retrieval.Cache
import Mathlib.Data.List.Induction

/-!
# The cache in memory as a timed map

What a cache answers is told from the history of its steps alone. An entry of a key is the last one set if it was
neither replaced nor cleared since; it is held if it was not evicted either, by a look-up of its key or by a purge
after its time.

* `CacheStep.apply`, `TimedCache.after`: the steps of a cache, and the cache that they lead to;
* `Since`: a step of the history after which all others pass a test;
* `LastSet`, `Held`: the two readings of a history;
* `TimedCache.get?_after`: the entries of the cache are the ones held;
* `LastSet.held_of_lt`: an entry that was last set and whose time is not over is held;
* `timed_cache_is_map`: every answer is the one that the history gives.
-/

namespace EntityQuery

/-! ## The clock -/

namespace Instant

theorem lt_of_le_of_lt {s t u : Instant} (hst : s ≤ t) (htu : t < u) : s < u := by
  have hst : s.secs < t.secs ∨ s.secs = t.secs ∧ s.nanos ≤ t.nanos := hst
  have htu : t.secs < u.secs ∨ t.secs = u.secs ∧ t.nanos < u.nanos := htu
  show s.secs < u.secs ∨ s.secs = u.secs ∧ s.nanos < u.nanos
  omega

theorem lt_irrefl (t : Instant) : ¬ t < t := by
  intro h
  have h : t.secs < t.secs ∨ t.secs = t.secs ∧ t.nanos < t.nanos := h
  omega

end Instant

theorem CacheEntry.isLive_iff {e : CacheEntry} {now : Instant} : e.isLive now = true ↔ now < e.expires := by
  simp [isLive]

/-! ## Steps -/

/-- A step of a cache. Look-ups and purges read the clock. -/
inductive CacheStep where
  | set (key : String) (records : List Record) (expires : Instant)
  | get (key : String) (now : Instant)
  | purge (now : Instant)
  | clear
  | size

/-- What a step of a cache gives. -/
inductive CacheReply where
  | done
  | found (records : Option (List Record))
  | count (number : Nat)

namespace CacheStep

/-- Performs a step. -/
def apply : CacheStep → TimedCache → CacheReply × TimedCache
  | set key records expires, c => (.done, c.set key records expires)
  | get key now, c => (.found (c.get key now).1, (c.get key now).2)
  | purge now, c => (.count (c.purge now).1, (c.purge now).2)
  | clear, c => (.done, c.clear)
  | size, c => (.count c.size, c)

/-- The reading of the clock in a step. -/
def time? : CacheStep → Option Instant
  | get _ now => some now
  | purge now => some now
  | _ => none

/-- A step that puts another entry in the place of a key's entry, or removes it whatever its time. -/
def Replaces (key : String) : CacheStep → Prop
  | set other _ _ => other = key
  | clear => True
  | _ => False

/-- A step that removes an entry of a key because its time is over. -/
def Evicts (key : String) (e : CacheEntry) : CacheStep → Prop
  | get other now => other = key ∧ ¬ now < e.expires
  | purge now => ¬ now < e.expires
  | _ => False

end CacheStep

/-- The cache after steps from the empty one. -/
def TimedCache.after (steps : List CacheStep) : TimedCache := steps.foldl (fun c step => (step.apply c).2) {}

@[simp] theorem TimedCache.after_nil : after [] = {} := rfl

@[simp] theorem TimedCache.after_append_singleton (steps : List CacheStep) (step : CacheStep) :
    after (steps ++ [step]) = (step.apply (after steps)).2 := by
  simp [after]

/-! ## Histories -/

/-- A step of a history such that all later ones pass a test. -/
def Since (P : CacheStep → Prop) (start : CacheStep) (steps : List CacheStep) : Prop :=
  ∃ before later, steps = before ++ start :: later ∧ ∀ step ∈ later, P step

section Since

variable {P Q : CacheStep → Prop} {start step : CacheStep} {steps : List CacheStep}

theorem not_since_nil : ¬ Since P start [] := by
  rintro ⟨before, later, h, -⟩
  simp at h

theorem since_append_singleton :
    Since P start (steps ++ [step]) ↔ step = start ∨ P step ∧ Since P start steps := by
  constructor
  · rintro ⟨before, later, h, hlater⟩
    rcases List.eq_nil_or_concat later with rfl | ⟨later, last, rfl⟩
    · obtain ⟨-, hlast⟩ := List.append_inj' h rfl
      exact .inl (List.singleton_inj.mp hlast)
    · rw [List.concat_eq_append] at h hlater
      rw [← List.cons_append, ← List.append_assoc] at h
      obtain ⟨hsteps, hlast⟩ := List.append_inj' h rfl
      obtain rfl := List.singleton_inj.mp hlast
      refine .inr ⟨hlater step (by simp), before, later, hsteps, ?_⟩
      intro s hs
      exact hlater s (List.mem_append_left _ hs)
  · rintro (rfl | ⟨hstep, before, later, rfl, hlater⟩)
    · exact ⟨steps, [], rfl, by simp⟩
    · refine ⟨before, later ++ [step], by simp, ?_⟩
      intro s hs
      rcases List.mem_append.mp hs with hs | hs
      · exact hlater s hs
      · rwa [List.mem_singleton.mp hs]

theorem Since.imp (h : Since P start steps) (hPQ : ∀ step ∈ steps, P step → Q step) : Since Q start steps := by
  obtain ⟨before, later, rfl, hlater⟩ := h
  refine ⟨before, later, rfl, ?_⟩
  intro step hstep
  exact hPQ step (by simp [hstep]) (hlater step hstep)

end Since

/-- The entry was set under the key last, and not cleared. -/
def LastSet (key : String) (e : CacheEntry) (steps : List CacheStep) : Prop :=
  Since (fun step => ¬ step.Replaces key) (.set key e.records e.expires) steps

/-- The entry was set under the key last, and neither cleared nor evicted. -/
def Held (key : String) (e : CacheEntry) (steps : List CacheStep) : Prop :=
  Since (fun step => ¬ step.Replaces key ∧ ¬ step.Evicts key e) (.set key e.records e.expires) steps

section Histories

variable {key : String} {e : CacheEntry} {now : Instant} {steps : List CacheStep}

theorem Held.lastSet (h : Held key e steps) : LastSet key e steps := h.imp fun _ _ hstep => hstep.1

/-- No step before its time is over has evicted the entry. -/
theorem LastSet.held_of_lt (h : LastSet key e steps) (hlive : now < e.expires)
    (hclock : ∀ t ∈ steps.filterMap CacheStep.time?, t ≤ now) : Held key e steps := by
  refine h.imp ?_
  intro step hstep hkept
  refine ⟨hkept, ?_⟩
  have hearly (t : Instant) (ht : step.time? = some t) : t < e.expires :=
    Instant.lt_of_le_of_lt (hclock t (List.mem_filterMap.mpr ⟨step, hstep, ht⟩)) hlive
  cases step with
  | set other records expires => exact id
  | get other t => exact fun hevicts => hevicts.2 (hearly t rfl)
  | purge t => exact fun hevicts => hevicts (hearly t rfl)
  | clear => exact id
  | size => exact id

theorem held_append_set {other : String} {records : List Record} {expires : Instant} :
    Held key e (steps ++ [.set other records expires]) ↔
      if key = other then e = ⟨records, expires⟩ else Held key e steps := by
  rw [Held, since_append_singleton]
  split_ifs with hkey
  · -- any earlier entry of the key is replaced
    subst hkey
    obtain ⟨kept, last⟩ := e
    simp [CacheStep.Replaces, eq_comm]
  · have hother : ¬ other = key := fun heq => hkey heq.symm
    simp [CacheStep.Replaces, CacheStep.Evicts, hother, Held]

theorem held_append_of_time {step : CacheStep} (hstart : step ≠ .set key e.records e.expires)
    (hkept : ¬ step.Replaces key) : Held key e (steps ++ [step]) ↔ ¬ step.Evicts key e ∧ Held key e steps := by
  rw [Held, since_append_singleton]
  simp [hstart, hkept, Held]

end Histories

/-! ## The entries of a cache -/

namespace TimedCache

variable {c : TimedCache} {key : String} {now : Instant}

theorem get_found (c : TimedCache) (key : String) (now : Instant) :
    (c.get key now).1 = ((c.entries.get? key).filter fun e => e.isLive now).map CacheEntry.records := by
  unfold get
  cases c.entries.get? key with
  | none => rfl
  | some e => by_cases hlive : e.isLive now = true <;> simp [hlive]

/-- A look-up drops the entry of its key if it is not live, and keeps those of the other keys. -/
theorem get?_get (c : TimedCache) (key other : String) (now : Instant) :
    (c.get key now).2.entries.get? other =
      if other = key then (c.entries.get? other).filter fun e => e.isLive now else c.entries.get? other := by
  unfold get
  by_cases hother : other = key
  · subst hother
    rw [if_pos rfl]
    cases hentry : c.entries.get? other with
    | none => simp [hentry]
    | some e =>
      by_cases hlive : e.isLive now = true
      · simp [hlive, hentry, Option.filter]
      · simp [hlive, SortedMap.get?_erase, Option.filter]
  · rw [if_neg hother]
    cases c.entries.get? key with
    | none => rfl
    | some e => by_cases hlive : e.isLive now = true <;> simp [hlive, hother, SortedMap.get?_erase]

theorem get?_purge (c : TimedCache) (key : String) (now : Instant) :
    (c.purge now).2.entries.get? key = (c.entries.get? key).filter fun e => e.isLive now :=
  SortedMap.get?_filter c.entries (fun _ e => e.isLive now) key

/-- The entries of a cache are the ones held, whatever the clock reads. -/
theorem get?_after (steps : List CacheStep) (key : String) (e : CacheEntry) :
    (after steps).entries.get? key = some e ↔ Held key e steps := by
  induction steps using List.reverseRecOn with
  | nil => exact ⟨fun h => absurd h (by simp [SortedMap.get?]), fun h => absurd h not_since_nil⟩
  | append_singleton steps step ih =>
    rw [after_append_singleton]
    cases step with
    | set other records expires =>
      show ((after steps).entries.insert other ⟨records, expires⟩).get? key = some e ↔ _
      rw [held_append_set, SortedMap.get?_insert]
      split_ifs
      · simp [eq_comm]
      · exact ih
    | get other now =>
      have hkept : ¬ (CacheStep.get other now).Replaces key := id
      show ((after steps).get other now).2.entries.get? key = some e ↔ _
      rw [held_append_of_time (by simp) hkept, ← ih, get?_get]
      by_cases hkey : key = other
      · subst hkey
        simp [CacheStep.Evicts, Option.filter_eq_some_iff, CacheEntry.isLive_iff, and_comm]
      · have hother : ¬ other = key := fun heq => hkey heq.symm
        simp [CacheStep.Evicts, hkey, hother]
    | purge now =>
      have hkept : ¬ (CacheStep.purge now).Replaces key := id
      show ((after steps).purge now).2.entries.get? key = some e ↔ _
      rw [held_append_of_time (by simp) hkept, ← ih, get?_purge]
      simp [CacheStep.Evicts, Option.filter_eq_some_iff, CacheEntry.isLive_iff, and_comm]
    | clear =>
      have hdropped : ¬ Held key e (steps ++ [.clear]) := by
        rw [Held, since_append_singleton]
        simp [CacheStep.Replaces]
      exact ⟨fun h => absurd h (by simp [CacheStep.apply, clear, SortedMap.get?]), fun h => absurd h hdropped⟩
    | size =>
      have hkept : ¬ CacheStep.size.Replaces key := id
      show (after steps).entries.get? key = some e ↔ _
      rw [held_append_of_time (by simp) hkept, ih]
      simp [CacheStep.Evicts]

/-- Among the entries, a look-up finds the live ones. -/
theorem isSome_get_of_mem {e : String × CacheEntry} (he : e ∈ c.entries.entries) (now : Instant) :
    (c.get e.1 now).1.isSome = e.2.isLive now := by
  have hentry : c.entries.get? e.1 = some e.2 := SortedMap.mem_entries_iff.mp he
  rw [get_found, hentry, Option.isSome_map, Option.isSome_filter]
  rfl

/-- A purge keeps the entries that a look-up at its instant finds. -/
theorem purge_entries (c : TimedCache) (now : Instant) :
    (c.purge now).2.entries.entries = c.entries.entries.filter fun e => (c.get e.1 now).1.isSome :=
  List.filter_congr fun _ he => (isSome_get_of_mem he now).symm

theorem purge_count (c : TimedCache) (now : Instant) :
    (c.purge now).1 = (c.entries.filter fun _ e => !e.isLive now).entries.length := by
  have hparts := List.length_eq_length_filter_add (l := c.entries.entries) fun e => e.2.isLive now
  show c.entries.entries.length - (c.entries.entries.filter fun e => e.2.isLive now).length =
    (c.entries.entries.filter fun e => !e.2.isLive now).length
  omega

/-- A purge counts the entries that a look-up at its instant does not find. -/
theorem purge_count_eq (c : TimedCache) (now : Instant) :
    (c.purge now).1 = (c.entries.entries.filter fun e => (c.get e.1 now).1.isNone).length := by
  rw [purge_count, SortedMap.entries_filter]
  congr 1
  refine List.filter_congr ?_
  intro e he
  rw [← isSome_get_of_mem he now, Option.not_isSome]

/-- An entry whose time is over just now is neither found nor kept. -/
theorem over_now (c : TimedCache) (key : String) (records : List Record) (now : Instant) :
    ((c.set key records now).get key now).1 = none ∧
      ((c.set key records now).get key now).2.entries.get? key = none ∧
      ((c.set key records now).purge now).2.entries.get? key = none := by
  have hentry : (c.set key records now).entries.get? key = some ⟨records, now⟩ := by
    simp [set, SortedMap.get?_insert]
  have hover : CacheEntry.isLive ⟨records, now⟩ now = false := by
    simpa [CacheEntry.isLive] using Instant.lt_irrefl now
  rw [get_found, get?_get, get?_purge, if_pos rfl, hentry]
  simp [Option.filter, hover]

end TimedCache

/-! ## Answers -/

/-- The answers that a history allows for a step. -/
def CacheStep.Answers (past : List CacheStep) : CacheStep → CacheReply → Prop
  | set _ _ _, .done => True
  | get key now, .found found =>
    ∀ records, found = some records ↔ ∃ expires, LastSet key ⟨records, expires⟩ past ∧ now < expires
  | purge now, .count number => number = {key | ∃ e, Held key e past ∧ ¬ now < e.expires}.ncard
  | clear, .done => True
  | size, .count number => number = {key | ∃ e, Held key e past}.ncard
  | _, _ => False

theorem answers_get {past : List CacheStep} {now : Instant}
    (hclock : ∀ t ∈ past.filterMap CacheStep.time?, t ≤ now) (key : String) :
    (CacheStep.get key now).Answers past (.found ((TimedCache.after past).get key now).1) := by
  intro records
  rw [TimedCache.get_found, Option.map_eq_some_iff]
  constructor
  · rintro ⟨e, hfound, rfl⟩
    obtain ⟨hentry, hlive⟩ := Option.filter_eq_some_iff.mp hfound
    have hheld : Held key e past := (TimedCache.get?_after past key e).mp hentry
    exact ⟨e.expires, hheld.lastSet, CacheEntry.isLive_iff.mp hlive⟩
  · rintro ⟨expires, hlast, hlive⟩
    have hheld : Held key ⟨records, expires⟩ past := hlast.held_of_lt hlive hclock
    have hentry := (TimedCache.get?_after past key _).mpr hheld
    exact ⟨_, Option.filter_eq_some_iff.mpr ⟨hentry, CacheEntry.isLive_iff.mpr hlive⟩, rfl⟩

theorem answers_purge (past : List CacheStep) (now : Instant) :
    (CacheStep.purge now).Answers past (.count ((TimedCache.after past).purge now).1) := by
  show ((TimedCache.after past).purge now).1 = _
  rw [TimedCache.purge_count, SortedMap.length_entries]
  congr 1
  ext key
  simp [SortedMap.get?_filter, Option.filter_eq_some_iff, TimedCache.get?_after, ← CacheEntry.isLive_iff]

theorem answers_size (past : List CacheStep) :
    CacheStep.size.Answers past (.count (TimedCache.after past).size) := by
  show (TimedCache.after past).entries.entries.length = _
  rw [SortedMap.length_entries]
  congr 1
  ext key
  simp [TimedCache.get?_after]

/-- **A cache in memory is a timed map.** While the clock does not go back, a look-up finds the records that were set
under its key last and not cleared if their time is not over, whatever look-ups and purges came between. A purge
counts the entries held whose time is over, and the size counts all that are held. In every cache a look-up touches
the entry of its own key only, and a purge removes what a look-up at its instant would not find; a time that is over
just now is over for both. -/
theorem timed_cache_is_map (steps : List CacheStep)
    (hclock : (steps.filterMap CacheStep.time?).Pairwise (· ≤ ·)) :
    (∀ past step rest, steps = past ++ step :: rest →
      step.Answers past (step.apply (TimedCache.after past)).1) ∧
    ∀ (c : TimedCache) (now : Instant),
      (∀ key other, other ≠ key → (c.get key now).2.entries.get? other = c.entries.get? other) ∧
      (c.purge now).2.entries.entries = c.entries.entries.filter (fun e => (c.get e.1 now).1.isSome) ∧
      (c.purge now).1 = (c.entries.entries.filter fun e => (c.get e.1 now).1.isNone).length ∧
      ∀ key records, ((c.set key records now).get key now).1 = none ∧
        ((c.set key records now).get key now).2.entries.get? key = none ∧
        ((c.set key records now).purge now).2.entries.get? key = none := by
  constructor
  · rintro past step rest rfl
    cases step with
    | set key records expires => trivial
    | get key now =>
      refine answers_get ?_ key
      intro t ht
      rw [List.filterMap_append, List.pairwise_append] at hclock
      exact hclock.2.2 t ht now (by simp [CacheStep.time?])
    | purge now => exact answers_purge past now
    | clear => trivial
    | size => exact answers_size past
  · intro c now
    refine ⟨?_, c.purge_entries now, c.purge_count_eq now, fun key records => c.over_now key records now⟩
    intro key other hother
    rw [TimedCache.get?_get, if_neg hother]

/-- Two keys. The entry of the first is over just when it is looked up, and over again, after it was set once more, just
when the cache is purged. The entry of the second is found after that. -/
theorem timed_cache_is_map_two_keys :
    let t₁ : Instant := ⟨10, 0, by decide, by decide⟩
    let t₂ : Instant := ⟨15, 0, by decide, by decide⟩
    let t₃ : Instant := ⟨20, 0, by decide, by decide⟩
    let a : List Record := [{ logicalName := "account" }]
    let b : List Record := [{ logicalName := "contact" }]
    let past : List CacheStep := [.set "a" a t₁, .set "b" b t₃, .get "a" t₁, .set "a" b t₂, .purge t₂]
    let steps := past ++ [.get "b" t₂, .size]
    let c := TimedCache.after past
    (steps.filterMap CacheStep.time?).Pairwise (· ≤ ·) ∧
      (CacheStep.get "b" t₂).Answers past (.found (c.get "b" t₂).1) ∧ (c.get "b" t₂).1 = some b ∧ c.size = 1 ∧
      (c.purge t₂).2.entries.entries = c.entries.entries.filter (fun e => (c.get e.1 t₂).1.isSome) := by
  intro t₁ t₂ t₃ a b past steps c
  have hclock : (steps.filterMap CacheStep.time?).Pairwise (· ≤ ·) := by decide
  obtain ⟨hanswers, hcaches⟩ := timed_cache_is_map steps hclock
  have hget := hanswers past (.get "b" t₂) [.size] rfl
  have hlast : LastSet "b" ⟨b, t₃⟩ past := by
    refine ⟨[.set "a" a t₁], [.get "a" t₁, .set "a" b t₂, .purge t₂], rfl, ?_⟩
    simp [CacheStep.Replaces]
  have hfound : (c.get "b" t₂).1 = some b := (hget b).mpr ⟨t₃, hlast, by decide⟩
  have hone : c.size = 1 := by decide
  exact ⟨hclock, hget, hfound, hone, (hcaches c t₂).2.1⟩

end EntityQuery
