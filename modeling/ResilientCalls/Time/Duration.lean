import ResilientCalls.Numeric.Layout

/-!
# Durations and instants

A duration is a number of nanoseconds; the longest one has `2^64 - 1`
seconds and `999999999` nanoseconds. An instant is the number of
nanoseconds since the clock started. Deadlines and timers are set no
further ahead than `Duration.furthest`, and timers fire on whole
milliseconds: `firing` rounds an instant up to one, and the three lemmas
on it say that no timer fires early, none a millisecond late, and none
overtakes another.
-/

namespace ResilientCalls

/-- The largest 32-bit count. -/
def maxCount32 : Nat := 4294967295

/-- The largest 64-bit count. -/
def maxCount64 : Nat := 18446744073709551615

/-- A length of time. -/
structure Duration where
  nanos : Nat
deriving DecidableEq, Inhabited

/-- A point in time, counted from the start of the clock. -/
structure Instant where
  nanos : Nat
deriving DecidableEq, Inhabited

namespace Duration

/-- Nanoseconds in a second. -/
def perSecond : Nat := 1000000000

/-- Nanoseconds in a millisecond. -/
def perMillisecond : Nat := 1000000

/-- No time at all. -/
def zero : Duration := ⟨0⟩

/-- The longest duration. -/
def longest : Duration := ⟨maxCount64 * perSecond + 999999999⟩

/-- A duration of whole seconds. -/
def ofSeconds (n : Nat) : Duration := ⟨n * perSecond⟩

/-- A duration of whole milliseconds. -/
def ofMillis (n : Nat) : Duration := ⟨n * perMillisecond⟩

/-- Roughly thirty years, the furthest ahead that anything is set. -/
def furthest : Duration := ofSeconds (86400 * 365 * 30)

/-- A duration of no length. -/
def isZero (d : Duration) : Bool := d.nanos == 0

/-- The product with a whole number, cut at the longest duration. -/
def times (d : Duration) (n : Nat) : Duration := ⟨min (d.nanos * n) longest.nanos⟩

/-- The shorter of two durations. -/
def shorter (a b : Duration) : Duration := ⟨min a.nanos b.nanos⟩

/-- The whole milliseconds in a duration, the rest dropped. -/
def wholeMillis (d : Duration) : Nat := d.nanos / perMillisecond

/-- The duration in whole milliseconds, rounded up and cut at the largest
64-bit count. -/
def millisUp (d : Duration) : Nat :=
  min ((d.nanos + (perMillisecond - 1)) / perMillisecond) maxCount64

/-! ## Text -/

/-- The digits of a fraction of `places` places, zeros at the end dropped. -/
def fractionText (places fraction : Nat) : String :=
  let digits := (toString fraction).toList
  let padded := List.replicate (places - digits.length) '0' ++ digits
  String.ofList ((padded.reverse.dropWhile (· == '0')).reverse)

/-- A duration counted in a unit of `10^places` nanoseconds. -/
def inUnit (places : Nat) (unit : String) (d : Duration) : String :=
  let fraction := d.nanos % pow10 places
  toString (d.nanos / pow10 places) ++
    (if fraction = 0 then "" else "." ++ fractionText places fraction) ++ unit

/-- **The text of a duration:** the largest unit of seconds, milliseconds,
microseconds and nanoseconds that is not longer than the duration, with
the exact fraction. -/
def text (d : Duration) : String :=
  if pow10 9 ≤ d.nanos then inUnit 9 "s" d
  else if pow10 6 ≤ d.nanos then inUnit 6 "ms" d
  else if pow10 3 ≤ d.nanos then inUnit 3 "µs" d
  else inUnit 0 "ns" d

/-- The text of a duration that may be absent. -/
def optionText : Option Duration → String
  | none => "None"
  | some d => "Some(" ++ d.text ++ ")"

/-! ## Scaling -/

/-- Why a number of seconds is no duration. -/
inductive ConversionError where
  | negative
  | tooLarge
deriving DecidableEq

/-- The text of a conversion error. -/
def ConversionError.message : ConversionError → String
  | .negative => "cannot convert float seconds to Duration: value is negative"
  | .tooLarge => "cannot convert float seconds to Duration: value is either too big or NaN"

/-- The number of seconds in a duration: the whole seconds and the
fraction are each rounded, and so is their sum. -/
def seconds (d : Duration) : Binary64 :=
  (Binary64.ofNat (d.nanos / perSecond)).add
    ((Binary64.ofNat (d.nanos % perSecond)).div (Binary64.ofNat perSecond))

/-- The duration of a number of seconds, rounded to the nearest
nanosecond with ties to even. It fails from `2^64` seconds on. -/
def ofSeconds64 : Binary64 → Except ConversionError Duration
  | .nan => .error .tooLarge
  | .infinite negative => .error (if negative then .negative else .tooLarge)
  | .finite negative m =>
    if negative && m.units != 0 then .error .negative
    else if (maxCount64 + 1) * unitsPerOne ≤ m.units then .error .tooLarge
    else .ok ⟨roundHalfEven (m.units * perSecond) unitsPerOne⟩

/-- The duration scaled by a factor, computed in binary64 seconds. -/
def scale (d : Duration) (factor : Binary64) : Except ConversionError Duration :=
  ofSeconds64 (factor.mul d.seconds)

end Duration

namespace Instant

/-- The start of the clock. -/
def start : Instant := ⟨0⟩

/-- The instant a duration later. -/
def plus (t : Instant) (d : Duration) : Instant := ⟨t.nanos + d.nanos⟩

/-- The instant a duration later, or as far ahead as anything is set. -/
def ahead (t : Instant) (d : Duration) : Instant := t.plus (d.shorter .furthest)

/-- The time from `earlier` to `now`; none when `now` comes first. -/
def since (now earlier : Instant) : Duration := ⟨now.nanos - earlier.nanos⟩

/-- The earlier of two instants. -/
def earlier (a b : Instant) : Instant := ⟨min a.nanos b.nanos⟩

/-- Whether `now` is at or after the instant. -/
def reached (t now : Instant) : Bool := decide (t.nanos ≤ now.nanos)

/-- When a timer set for the instant fires: timers fire on whole
milliseconds. -/
def firing (t : Instant) : Instant :=
  ⟨(t.nanos + (Duration.perMillisecond - 1)) / Duration.perMillisecond *
    Duration.perMillisecond⟩

/-- The last instant that a timer waits for: timers count milliseconds in
64 bits, and the two largest counts mark timers that are not set. -/
def lastFiring : Instant := ⟨(maxCount64 - 2) * Duration.perMillisecond⟩

/-- When a timer set now for a duration fires: at once for no duration,
else on a whole millisecond, the last one at the latest. -/
def timer (now : Instant) (d : Duration) : Instant :=
  if d.isZero then now else (now.ahead d).firing.earlier lastFiring

/-- No timer fires before its instant. -/
theorem le_firing (t : Instant) : t.nanos ≤ t.firing.nanos := by
  simp only [firing, Duration.perMillisecond]
  omega

/-- A timer fires less than a millisecond late. -/
theorem firing_lt (t : Instant) : t.firing.nanos < t.nanos + Duration.perMillisecond := by
  simp only [firing, Duration.perMillisecond]
  omega

/-- A later timer fires no earlier. -/
theorem firing_mono {a b : Instant} (h : a.nanos ≤ b.nanos) :
    a.firing.nanos ≤ b.firing.nanos := by
  simp only [firing, Duration.perMillisecond]
  omega

/-- A timer fires less than a millisecond after the time it was set for. -/
theorem timer_lt (now : Instant) (d : Duration) :
    (now.timer d).nanos < now.nanos + d.nanos + Duration.perMillisecond := by
  have hlt := firing_lt (now.ahead d)
  have hle : (now.ahead d).nanos ≤ now.nanos + d.nanos :=
    Nat.add_le_add_left (Nat.min_le_left _ _) _
  unfold timer
  split
  · simp only [Duration.perMillisecond]
    omega
  · have := Nat.min_le_left (now.ahead d).firing.nanos lastFiring.nanos
    simp only [earlier]
    omega

/-- A timer that is set within the bounds of all timers does not fire
early. -/
theorem le_timer {now : Instant} {d : Duration} (hd : d.nanos ≤ Duration.furthest.nanos)
    (hlast : now.nanos + d.nanos ≤ lastFiring.nanos) :
    now.nanos + d.nanos ≤ (now.timer d).nanos := by
  have hahead : (now.ahead d).nanos = now.nanos + d.nanos := by
    simp only [ahead, plus, Duration.shorter, Nat.min_eq_left hd]
  have hfiring := le_firing (now.ahead d)
  unfold timer
  split
  · rename_i hzero
    have : d.nanos = 0 := by simpa [Duration.isZero] using hzero
    omega
  · simp only [earlier]
    omega

/-! ## The end of the clock -/

/-- The last second that can be counted. Seconds are kept in a signed
64-bit number that has been counting since the machine came up, for which
an hour is set aside. -/
def lastSecond : Nat := 9223372036854775807 - 3600

/-- The clock can count as far as the instant. -/
def isCountable (t : Instant) : Bool := decide (t.nanos / Duration.perSecond ≤ lastSecond)

/-- The instant a duration later, if the clock can count so far. -/
def plus? (t : Instant) (d : Duration) : Option Instant :=
  if (t.plus d).isCountable then some (t.plus d) else none

/-- The text of a failure to count that far. -/
def overflowText : String := "overflow when adding duration to instant"

end Instant

end ResilientCalls
