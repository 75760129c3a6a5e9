import ResilientCalls.Retry.Blocking
/-!
# Sleeping through a pause

A thread that the token wakes looks around whenever it is woken and goes on
sleeping until it is woken for good: at the end of its sleep, or by the
token before (`sleepUntil_asleep`). So a sleep that the cancellation does
not reach comes to its end in time, whatever wakes the thread in between,
and one that the cancellation reaches ends then.
-/

namespace ResilientCalls

namespace Blocking

variable {c : Option Instant} {now ended wakeAt : Instant} {delay : Duration}

/-- When a sleeping thread is woken for good: at the end of its sleep, or
by the token before. -/
def unparkedAt (wakeAt : Instant) : Option Instant → Instant
  | some c => wakeAt.earlier c
  | none => wakeAt

theorem tokenReads_some {c : Instant} : tokenReads (some c) now = decide (c.nanos ≤ now.nanos) :=
  rfl

theorem tokenReads_of_le {later : Instant} (h : tokenReads c later = false)
    (hle : now.nanos ≤ later.nanos) : tokenReads c now = false := by
  cases c with
  | none => rfl
  | some c =>
    rw [tokenReads_some, decide_eq_false_iff_not] at h ⊢
    omega

/-- Up to then the token does not read as cancelled. -/
theorem tokenReads_of_lt_unparkedAt (h : now.nanos < (unparkedAt wakeAt c).nanos) :
    tokenReads c now = false := by
  cases c with
  | none => rfl
  | some c =>
    have hmin : (unparkedAt wakeAt (some c)).nanos ≤ c.nanos := Nat.min_le_right _ _
    rw [tokenReads_some, decide_eq_false_iff_not]
    omega

theorem unparkedAt_le : (unparkedAt wakeAt c).nanos ≤ wakeAt.nanos := by
  cases c with
  | none => exact Nat.le_refl _
  | some c => exact Nat.min_le_left _ _

/-- If the token does not wake it, the thread sleeps to the end. -/
theorem unparkedAt_eq (h : tokenReads c (unparkedAt wakeAt c) = false) :
    unparkedAt wakeAt c = wakeAt := by
  cases c with
  | none => rfl
  | some c =>
    rw [tokenReads_some, decide_eq_false_iff_not] at h
    have hmin : (unparkedAt wakeAt (some c)).nanos = min wakeAt.nanos c.nanos := rfl
    exact congrArg Instant.mk (Nat.min_eq_left (by omega))

/-- One look around of a thread that goes on sleeping. -/
theorem sleepUntil_round (hread : tokenReads c now = false) (hlt : now.nanos < wakeAt.nanos)
    (wakeups : List Instant) :
    sleepUntil wakeAt c wakeups now =
      match wakeups with
      | [] => (!tokenReads c (unparkedAt wakeAt c), unparkedAt wakeAt c)
      | woken :: rest =>
        sleepUntil wakeAt c rest
          ⟨max now.nanos (min woken.nanos (unparkedAt wakeAt c).nanos)⟩ := by
  have hreached : wakeAt.reached now = false := decide_eq_false (Nat.not_le.2 hlt)
  rw [sleepUntil.eq_def]
  simp only [hread, hreached, Bool.false_eq_true, if_false]
  cases c <;> rfl

/-- A thread that is woken for good looks around once more. -/
theorem sleepUntil_unparkedAt (wakeups : List Instant) :
    sleepUntil wakeAt c wakeups (unparkedAt wakeAt c) =
      (!tokenReads c (unparkedAt wakeAt c), unparkedAt wakeAt c) := by
  cases hread : tokenReads c (unparkedAt wakeAt c) with
  | true =>
    unfold sleepUntil
    rw [if_pos hread]
    rfl
  | false =>
    have hreached : wakeAt.reached (unparkedAt wakeAt c) = true := by
      rw [unparkedAt_eq hread]
      exact decide_eq_true (Nat.le_refl _)
    unfold sleepUntil
    rw [if_neg (by simp [hread]), if_pos hreached]
    rfl

/-- **A thread that goes to sleep** sleeps until it is woken for good,
however often it is woken in between. -/
theorem sleepUntil_asleep (wakeups : List Instant)
    (hle : now.nanos ≤ (unparkedAt wakeAt c).nanos) :
    sleepUntil wakeAt c wakeups now =
      (!tokenReads c (unparkedAt wakeAt c), unparkedAt wakeAt c) := by
  induction wakeups generalizing now with
  | nil =>
    rcases Nat.eq_or_lt_of_le hle with heq | hlt
    · rw [show now = unparkedAt wakeAt c from congrArg Instant.mk heq, sleepUntil_unparkedAt]
    · have hbefore : now.nanos < wakeAt.nanos := Nat.lt_of_lt_of_le hlt unparkedAt_le
      rw [sleepUntil_round (tokenReads_of_lt_unparkedAt hlt) hbefore]
  | cons woken wakeups ih =>
    rcases Nat.eq_or_lt_of_le hle with heq | hlt
    · rw [show now = unparkedAt wakeAt c from congrArg Instant.mk heq, sleepUntil_unparkedAt]
    · have hbefore : now.nanos < wakeAt.nanos := Nat.lt_of_lt_of_le hlt unparkedAt_le
      rw [sleepUntil_round (tokenReads_of_lt_unparkedAt hlt) hbefore]
      exact ih (Nat.max_le.2 ⟨hle, Nat.min_le_right _ _⟩)

/-- **A sleep that the cancellation does not reach** comes to its end in
time. -/
theorem sleepUntil_eq (hread : tokenReads c wakeAt = false) (wakeups : List Instant)
    (hle : now.nanos ≤ wakeAt.nanos) : sleepUntil wakeAt c wakeups now = (true, wakeAt) := by
  have hend : unparkedAt wakeAt c = wakeAt :=
    unparkedAt_eq (tokenReads_of_le hread unparkedAt_le)
  rw [sleepUntil_asleep wakeups (by rwa [hend]), hend, hread]
  rfl

/-- **A sleep that the cancellation reaches** ends then, or at once if the
token is cancelled already. -/
theorem sleepUntil_some {c : Instant} (hread : tokenReads (some c) wakeAt = true)
    (wakeups : List Instant) :
    sleepUntil wakeAt (some c) wakeups now = (false, ⟨max c.nanos now.nanos⟩) := by
  have hc : c.nanos ≤ wakeAt.nanos := of_decide_eq_true hread
  have hunparked : unparkedAt wakeAt (some c) = c := congrArg Instant.mk (Nat.min_eq_right hc)
  rcases Nat.lt_or_ge now.nanos c.nanos with hlt | hge
  · have hself : tokenReads (some c) c = true := decide_eq_true (Nat.le_refl _)
    rw [sleepUntil_asleep wakeups (by rw [hunparked]; omega), hunparked, hself,
      Nat.max_eq_left (by omega)]
    rfl
  · have hnow : tokenReads (some c) now = true := decide_eq_true hge
    unfold sleepUntil
    rw [if_pos hnow, Nat.max_eq_right hge]

/-! ## The sleep of a run -/

/-- The sleep of a run with a token that is not cancelled in time. -/
theorem sleep_of_unread (hread : tokenReads c (ended.plus delay) = false)
    (hcount : (ended.plus delay).isCountable = true) (wakeups : List Instant) :
    sleep true c wakeups delay ended = some (true, ended.plus delay) := by
  have hle : ended.nanos ≤ (ended.plus delay).nanos := Nat.le_add_right _ _
  simp only [sleep, Instant.plus?, hcount, if_true, Option.map_some,
    sleepUntil_eq hread wakeups hle]

/-- The sleep of a run whose token is cancelled before its end. -/
theorem sleep_of_read {t : Instant} (hreached : t.nanos ≤ (ended.plus delay).nanos)
    (hcount : (ended.plus delay).isCountable = true) (wakeups : List Instant) :
    sleep true (some t) wakeups delay ended = some (false, ⟨max t.nanos ended.nanos⟩) := by
  simp only [sleep, Instant.plus?, hcount, if_true, Option.map_some,
    sleepUntil_some (decide_eq_true hreached) wakeups]

end Blocking

end ResilientCalls
