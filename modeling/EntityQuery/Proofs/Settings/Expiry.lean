import EntityQuery.Settings.Basic
import Mathlib.Data.Int.Order.Basic

/-!
# Expiry as a sum that stops at the last instant

Outside of leap seconds an instant is a number of nanoseconds, and a duration is added to it as a number. A time to live
that is no signed count or no duration is so long that it leads past the last instant from every other one. So an expiry
is the exact sum, or the last instant if the sum is past it.

* `Instant.IsRegular`, `Instant.totalNanos`: instants as numbers;
* `Duration.ofSecs?_eq_none_iff`, `Instant.IsRegular.add?_eq_none_iff`: when there is no duration and no sum;
* `Instant.IsRegular.add?_eq_some_iff`: sums are exact;
* `CacheSettings.totalNanos_expiresAt`: the expiry as a number;
* `expiry_is_saturating_sum`: what this says of the expiry, and that it grows with the instant and the time to live.
-/

namespace EntityQuery

namespace Duration

variable {n : Nat} {d : Duration}

theorem ofSecs?_eq_some_iff : ofSecs? n = some d ↔ d.secs = n := by
  unfold ofSecs?
  split
  · rename_i h
    constructor
    · rintro ⟨⟩
      rfl
    · rintro rfl
      rfl
  · rename_i h
    refine ⟨nofun, ?_⟩
    rintro rfl
    exact absurd d.within h

/-- There are durations up to the greatest one. -/
theorem ofSecs?_eq_none_iff : ofSecs? n = none ↔ greatest < n := by
  simp [ofSecs?]

end Duration

namespace Instant

variable {s t u : Instant} {d : Duration}

/-! ## Instants as numbers -/

/-- An instant outside of leap seconds. -/
def IsRegular (t : Instant) : Prop := t.nanos < nanosPerSecond

instance (t : Instant) : Decidable t.IsRegular := inferInstanceAs (Decidable (_ < _))

/-- The nanoseconds between the start of 1970 and an instant. -/
def totalNanos (t : Instant) : Int := t.secs * nanosPerSecond + t.nanos

theorem isRegular_last : last.IsRegular := by decide

/-- Regular instants are in the order of their numbers. -/
theorem IsRegular.le_iff (hs : s.IsRegular) (ht : t.IsRegular) : s ≤ t ↔ s.totalNanos ≤ t.totalNanos := by
  show s.secs < t.secs ∨ s.secs = t.secs ∧ s.nanos ≤ t.nanos ↔ _
  simp only [IsRegular, totalNanos, nanosPerSecond] at *
  omega

theorem IsRegular.eq_of_totalNanos_eq (hs : s.IsRegular) (ht : t.IsRegular) (h : s.totalNanos = t.totalNanos) :
    s = t := by
  simp only [IsRegular, totalNanos, nanosPerSecond] at *
  have hsecs : s.secs = t.secs := by omega
  have hnanos : s.nanos = t.nanos := by omega
  cases s
  cases t
  exact (Instant.mk.injEq ..).mpr ⟨hsecs, hnanos⟩

theorem IsRegular.totalNanos_le_last (ht : t.IsRegular) : t.totalNanos ≤ last.totalNanos := by
  have hsecs := t.within.2
  simp only [IsRegular, totalNanos, nanosPerSecond, last] at *
  omega

/-! ## Sums -/

theorem ofParts?_eq_some_iff {secs : Int} {nanos : Nat} :
    ofParts? secs nanos = some t ↔ t.secs = secs ∧ t.nanos = nanos := by
  unfold ofParts?
  split
  · rename_i h
    constructor
    · rintro ⟨⟩
      exact ⟨rfl, rfl⟩
    · rintro ⟨rfl, rfl⟩
      rfl
  · rename_i h
    refine ⟨nofun, ?_⟩
    rintro ⟨rfl, rfl⟩
    exact absurd ⟨t.within, t.holds⟩ h

/-- A duration is added to the seconds of a regular instant. -/
theorem IsRegular.add?_eq (ht : t.IsRegular) (d : Duration) : t.add? d = ofParts? (t.secs + d.secs) t.nanos := by
  unfold add?
  rw [Nat.mod_eq_of_lt ht]
  split
  · rename_i h
    rw [h]
    exact (ofParts?_eq_some_iff.mpr ⟨by simp, rfl⟩).symm
  · rfl

/-- A sum is exact. -/
theorem IsRegular.add?_eq_some_iff (ht : t.IsRegular) :
    t.add? d = some u ↔ u.IsRegular ∧ u.totalNanos = t.totalNanos + d.secs * nanosPerSecond := by
  rw [ht.add?_eq, ofParts?_eq_some_iff]
  simp only [IsRegular, totalNanos, nanosPerSecond] at *
  omega

/-- There is a sum unless it is past the last instant. -/
theorem IsRegular.add?_eq_none_iff (ht : t.IsRegular) :
    t.add? d = none ↔ last.totalNanos < t.totalNanos + d.secs * nanosPerSecond := by
  have hwithin := t.within
  have hnanos : t.nanos < 1000000000 := ht
  rw [ht.add?_eq, ofParts?]
  simp only [totalNanos, nanosPerSecond, last]
  split
  · rename_i h
    refine ⟨nofun, fun hpast => ?_⟩
    omega
  · rename_i h
    have hholds : Holds (t.secs + d.secs) t.nanos := .inl ht
    rw [and_iff_left hholds] at h
    refine ⟨fun _ => ?_, fun _ => rfl⟩
    omega

/-- Every instant is past the last one after more seconds than a duration can have. -/
theorem last_lt_of_greatest_lt (t : Instant) {n : Nat} (h : Duration.greatest < n) :
    last.totalNanos < t.totalNanos + n * nanosPerSecond := by
  have hsecs := t.within.1
  simp only [Duration.greatest, greatestCount, totalNanos, nanosPerSecond, last] at *
  omega

end Instant

/-! ## Expiry -/

namespace CacheSettings

variable {now : Instant}

/-- **An expiry is the exact sum, or the last instant if the sum is past it.** -/
theorem totalNanos_expiresAt (s : CacheSettings) (hnow : now.IsRegular) :
    (s.expiresAt now).IsRegular ∧
      (s.expiresAt now).totalNanos =
        min (now.totalNanos + s.ttlSecs.toNat * Instant.nanosPerSecond) Instant.last.totalNanos := by
  -- a sum past the last instant is cut off there, by whichever of the limits
  have hpast (h : Instant.last.totalNanos < now.totalNanos + s.ttlSecs.toNat * Instant.nanosPerSecond) :
      Instant.last.IsRegular ∧ Instant.last.totalNanos =
        min (now.totalNanos + s.ttlSecs.toNat * Instant.nanosPerSecond) Instant.last.totalNanos :=
    ⟨Instant.isRegular_last, (min_eq_right (le_of_lt h)).symm⟩
  unfold expiresAt
  cases hd : Duration.ofSecs? (min s.ttlSecs.toNat greatestCount) with
  | none =>
    have hgreatest := Duration.ofSecs?_eq_none_iff.mp hd
    exact hpast (now.last_lt_of_greatest_lt (Nat.lt_of_lt_of_le hgreatest (Nat.min_le_left _ _)))
  | some d =>
    -- no duration has as many seconds as the count that longer times to live are cut to
    have hsecs : d.secs = s.ttlSecs.toNat := by
      have hmin := Duration.ofSecs?_eq_some_iff.mp hd
      have hwithin := d.within
      simp only [Duration.greatest, greatestCount] at *
      omega
    show ((now.add? d).getD .last).IsRegular ∧ ((now.add? d).getD .last).totalNanos = _
    rw [← hsecs] at hpast ⊢
    cases ht : now.add? d with
    | none => exact hpast (hnow.add?_eq_none_iff.mp ht)
    | some t =>
      obtain ⟨hregular, htotal⟩ := hnow.add?_eq_some_iff.mp ht
      refine ⟨hregular, htotal.trans (min_eq_left ?_).symm⟩
      rw [← htotal]
      exact hregular.totalNanos_le_last

end CacheSettings

/-- **An expiry is a sum that stops at the last instant.** Let the clock show an instant outside of leap seconds, which
are not numbered. If the instant and the time to live add up to no more than the last instant, the expiry is their sum,
to the nanosecond; otherwise it is the last instant. It is never before the time on the clock, and a later time or a
longer time to live gives no earlier expiry. -/
theorem expiry_is_saturating_sum (s : CacheSettings) (now : Instant) (hnow : now.IsRegular) :
    (now.totalNanos + s.ttlSecs.toNat * Instant.nanosPerSecond ≤ Instant.last.totalNanos →
      (s.expiresAt now).IsRegular ∧
        (s.expiresAt now).totalNanos = now.totalNanos + s.ttlSecs.toNat * Instant.nanosPerSecond) ∧
    (Instant.last.totalNanos < now.totalNanos + s.ttlSecs.toNat * Instant.nanosPerSecond →
      s.expiresAt now = .last) ∧
    now ≤ s.expiresAt now ∧
    ∀ (s' : CacheSettings) (later : Instant), later.IsRegular → now ≤ later → s.ttlSecs ≤ s'.ttlSecs →
      s.expiresAt now ≤ s'.expiresAt later := by
  obtain ⟨hregular, htotal⟩ := s.totalNanos_expiresAt hnow
  refine ⟨fun hsum => ⟨hregular, ?_⟩, fun hpast => ?_, ?_, fun s' later hlater hle httl => ?_⟩
  · rw [htotal, min_eq_left hsum]
  · refine hregular.eq_of_totalNanos_eq Instant.isRegular_last ?_
    rw [htotal, min_eq_right (le_of_lt hpast)]
  · rw [hnow.le_iff hregular, htotal]
    refine le_min ?_ hnow.totalNanos_le_last
    simp only [Instant.nanosPerSecond]
    omega
  · obtain ⟨hregular', htotal'⟩ := s'.totalNanos_expiresAt hlater
    rw [hregular.le_iff hregular', htotal, htotal']
    have hnanos : now.totalNanos ≤ later.totalNanos := (hnow.le_iff hlater).mp hle
    have hsecs : s.ttlSecs.toNat ≤ s'.ttlSecs.toNat := httl
    simp only [Instant.nanosPerSecond]
    omega

/-- Ninety seconds to live two and a half minutes before the end, and the longest time to live there is nearly a second
later. -/
theorem expiry_is_saturating_sum_to_the_end :
    let now : Instant := ⟨8210266876649, 5, by decide, by decide⟩
    let later : Instant := ⟨8210266876650, 0, by decide, by decide⟩
    let s : CacheSettings := { ttlSecs := 90 }
    let s' : CacheSettings := { ttlSecs := 18446744073709551615 }
    now.IsRegular ∧ (s.expiresAt now).totalNanos = 8210266876739000000005 ∧ later.IsRegular ∧
      s'.expiresAt later = .last ∧ now ≤ later ∧ s.expiresAt now ≤ s'.expiresAt later := by
  intro now later s s'
  obtain ⟨hsum, -, -, hmono⟩ := expiry_is_saturating_sum s now (by decide)
  obtain ⟨-, hpast, -, -⟩ := expiry_is_saturating_sum s' later (by decide)
  exact ⟨by decide, (hsum (by decide +kernel)).2.trans (by decide +kernel), by decide, hpast (by decide +kernel),
    by decide, hmono s' later (by decide) (by decide) (by decide)⟩

end EntityQuery
