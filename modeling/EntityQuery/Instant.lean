/-!
# Instants

An instant is a second counted from the start of 1970 in UTC and a number of nanoseconds into it, within the
range of years that the calendar covers. The last second of a minute may be followed by a leap second, which
has no number of its own: its nanoseconds count on from those of the second before it.

* `Duration.ofSecs?` makes a duration of a number of seconds, if there is such a duration;
* `Instant.add?` adds a duration, if this does not lead past the last instant.
-/

-- powers are the built-in ones, also where other instances are at hand
attribute [instance (high), default_instance 20000] instPowNat

namespace EntityQuery

/-- The number of nanoseconds in a second. -/
def Instant.nanosPerSecond : Nat := 1000000000

/-- Whether a second may hold a number of nanoseconds. -/
def Instant.Holds (secs : Int) (nanos : Nat) : Prop :=
  nanos < nanosPerSecond ∨ secs % 60 = 59 ∧ nanos < 2 * nanosPerSecond

instance (secs : Int) (nanos : Nat) : Decidable (Instant.Holds secs nanos) :=
  inferInstanceAs (Decidable (_ ∨ _))

/-- A point in time. -/
structure Instant where
  /-- The second, counted from the start of 1970. -/
  secs : Int
  /-- The nanoseconds since the start of the second. -/
  nanos : Nat
  within : -8334601228800 ≤ secs ∧ secs ≤ 8210266876799
  holds : Instant.Holds secs nanos
deriving DecidableEq

namespace Instant

/-- The last instant. -/
def last : Instant := ⟨8210266876799, 999999999, by decide, by decide⟩

/-- The instant of a second and nanoseconds. -/
def ofParts? (secs : Int) (nanos : Nat) : Option Instant :=
  if h : (-8334601228800 ≤ secs ∧ secs ≤ 8210266876799) ∧ Holds secs nanos then
    some ⟨secs, nanos, h.1, h.2⟩
  else none

/-- The instant at a number of milliseconds. -/
def ofMillis? (millis : Int) : Option Instant :=
  ofParts? (millis / 1000) ((millis % 1000).toNat * 1000000)

/-- The whole milliseconds of an instant, rounded down. -/
def millis (t : Instant) : Int := t.secs * 1000 + t.nanos / 1000000

instance : LT Instant := ⟨fun s t => s.secs < t.secs ∨ s.secs = t.secs ∧ s.nanos < t.nanos⟩

instance : LE Instant := ⟨fun s t => s.secs < t.secs ∨ s.secs = t.secs ∧ s.nanos ≤ t.nanos⟩

instance (s t : Instant) : Decidable (s < t) := inferInstanceAs (Decidable (_ ∨ _))

instance (s t : Instant) : Decidable (s ≤ t) := inferInstanceAs (Decidable (_ ∨ _))

end Instant

/-! ## Durations -/

/-- The greatest number of a signed count of 64 bits. -/
def greatestCount : Nat := 2 ^ 63 - 1

/-- The greatest number of seconds that a duration can have, as its milliseconds are counted. -/
def Duration.greatest : Nat := greatestCount / 1000

/-- A length of time in whole seconds. -/
structure Duration where
  secs : Nat
  within : secs ≤ Duration.greatest
deriving DecidableEq

/-- The duration of a number of seconds. -/
def Duration.ofSecs? (secs : Nat) : Option Duration :=
  if h : secs ≤ greatest then some ⟨secs, h⟩ else none

/-- The instant a duration after another one. Seconds added to an instant within a leap second are added to the
second that it follows, with the nanoseconds that have passed of the leap second. -/
def Instant.add? (t : Instant) (d : Duration) : Option Instant :=
  if d.secs = 0 then some t else ofParts? (t.secs + d.secs) (t.nanos % nanosPerSecond)

end EntityQuery
