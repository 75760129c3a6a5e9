import ResilientCalls.Retry.Run

/-!
# A run on a clock

A run is polled whenever a timer of its fires or its token is cancelled,
and in between the clock moves straight to the next such instant. At an
instant at which both happen the token is read first.
-/

namespace ResilientCalls

/-- A run on a clock: the time, the run, its world, what has happened, and
how its last poll ended. -/
structure Course (σ τ ε α : Type) where
  now : Instant
  run : Run τ ε
  world : σ
  events : List RetryEvent
  ending : Ending ε α

/-- The earliest of some instants that comes after `now` and not after
`limit`. -/
def earliestWithin (now limit : Instant) : List Instant → Option Instant
  | [] => none
  | t :: rest =>
    if now.nanos < t.nanos ∧ t.nanos ≤ limit.nanos then
      match earliestWithin now limit rest with
      | none => some t
      | some best => some (best.earlier t)
    else earliestWithin now limit rest

/-- The instant found comes after `now` and not after the limit. -/
theorem earliestWithin_bounds {now limit t : Instant} {ts : List Instant}
    (h : earliestWithin now limit ts = some t) :
    now.nanos < t.nanos ∧ t.nanos ≤ limit.nanos := by
  induction ts generalizing t with
  | nil => simp [earliestWithin] at h
  | cons u rest ih =>
    by_cases hu : now.nanos < u.nanos ∧ u.nanos ≤ limit.nanos
    · simp only [earliestWithin, if_pos hu] at h
      split at h
      · obtain rfl := Option.some.inj h
        exact hu
      · rename_i best hbest
        obtain rfl := Option.some.inj h
        have hb := ih hbest
        simp only [Instant.earlier]
        omega
    · simp only [earliestWithin, if_neg hu] at h
      exact ih h

/-- An instant is found if there is one after `now` and within the
limit. -/
theorem earliestWithin_ne_none {now limit u : Instant} {ts : List Instant} (hmem : u ∈ ts)
    (hlt : now.nanos < u.nanos) (hle : u.nanos ≤ limit.nanos) :
    earliestWithin now limit ts ≠ none := by
  induction ts with
  | nil => simp at hmem
  | cons v rest ih =>
    by_cases hv : now.nanos < v.nanos ∧ v.nanos ≤ limit.nanos
    · simp only [earliestWithin, if_pos hv]
      split <;> simp
    · simp only [earliestWithin, if_neg hv]
      rcases List.mem_cons.1 hmem with rfl | hrest
      · exact absurd ⟨hlt, hle⟩ hv
      · exact ih hrest

/-- No instant after `now` and within the limit comes before the one
found. -/
theorem earliestWithin_le {now limit t u : Instant} {ts : List Instant}
    (h : earliestWithin now limit ts = some t) (hmem : u ∈ ts) (hlt : now.nanos < u.nanos)
    (hle : u.nanos ≤ limit.nanos) : t.nanos ≤ u.nanos := by
  induction ts generalizing t with
  | nil => simp at hmem
  | cons v rest ih =>
    by_cases hv : now.nanos < v.nanos ∧ v.nanos ≤ limit.nanos
    · simp only [earliestWithin, if_pos hv] at h
      split at h
      · rename_i hnone
        obtain rfl := Option.some.inj h
        rcases List.mem_cons.1 hmem with rfl | hrest
        · exact Nat.le_refl _
        · exact absurd hnone (earliestWithin_ne_none hrest hlt hle)
      · rename_i best hbest
        obtain rfl := Option.some.inj h
        simp only [Instant.earlier]
        rcases List.mem_cons.1 hmem with rfl | hrest
        · omega
        · have := ih hbest hrest
          omega
    · simp only [earliestWithin, if_neg hv] at h
      rcases List.mem_cons.1 hmem with rfl | hrest
      · exact absurd ⟨hlt, hle⟩ hv
      · exact ih h hrest

namespace Course

variable {σ τ ε α : Type}

/-- A run that has not been polled. -/
def begin (o : RetryOptions) (now : Instant) (world : σ) : Course σ τ ε α :=
  ⟨now, .new o, world, [], .pending⟩

/-- Nothing more happens by itself. -/
def isOver (c : Course σ τ ε α) : Bool := c.run.phase.isSettled

/-- The course with the run polled once; the events are those of this
poll. -/
def pollNow [Failure ε] (w : Work σ τ ε α) (draws : Draws) (cancelledFrom : Option Instant)
    (c : Course σ τ ε α) : Course σ τ ε α :=
  let t := c.run.poll w draws c.now (cancelledFrom.any (·.reached c.now)) c.world
  ⟨c.now, t.run, t.world, t.events, t.result⟩

/-- Polls at the instants up to `limit` at which something happens, at
most `fuel` of them. A run that is still going waits until `limit`; the
events are those from now on. -/
def followFor [Failure ε] (w : Work σ τ ε α) (draws : Draws) (cancelledFrom : Option Instant)
    (limit : Instant) : Nat → Course σ τ ε α → Course σ τ ε α
  | 0, c => { c with events := [] }
  | fuel + 1, c =>
    let polled := c.pollNow w draws cancelledFrom
    match polled.ending with
    | .pending =>
      match earliestWithin c.now limit (polled.run.timers w ++ cancelledFrom.toList) with
      | none => { polled with now := ⟨max c.now.nanos limit.nanos⟩ }
      | some next =>
        let rest := followFor w draws cancelledFrom limit fuel { polled with now := next }
        { rest with events := polled.events ++ rest.events }
    | _ => polled

/-- **Follows a run** until it settles or the clock reaches `limit`. The
clock moves with every poll, so the nanoseconds up to the limit bound the
polls. -/
def follow [Failure ε] (w : Work σ τ ε α) (draws : Draws) (cancelledFrom : Option Instant)
    (limit : Instant) (c : Course σ τ ε α) : Course σ τ ε α :=
  if c.isOver then { c with events := [] }
  else c.followFor w draws cancelledFrom limit (limit.nanos - c.now.nanos + 1)

end Course

end ResilientCalls
