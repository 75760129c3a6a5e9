import ResilientCalls.Proofs.Retry.Chronicle
import ResilientCalls.Proofs.Retry.Decision
/-!
# Where a run stands after its attempts

The attempts that have ended decide where a run stands: which attempt
comes next, which pauses were asked for, which failure was the last, and
whether and how the run has come to its end. `Standing.after` adds one
attempt by the rule for failures, and the standing of a run is the fold of
it over the chronicle. A non-blocking run keeps the same data in its
phase, its counter, its timer and its last error; `Tracks` says that they
agree, and one transition keeps it so. A blocking run walks the same fold
in a loop.
-/

namespace ResilientCalls

variable {σ τ ε α : Type}

/-- The delays that events report, in order. -/
def RetryEvent.delays (events : List RetryEvent) : List Duration :=
  events.filterMap fun
    | .retrying _ delay _ => some delay
    | _ => none

@[simp] theorem RetryEvent.delays_nil : RetryEvent.delays [] = [] := rfl

@[simp] theorem RetryEvent.delays_append (a b : List RetryEvent) :
    RetryEvent.delays (a ++ b) = RetryEvent.delays a ++ RetryEvent.delays b :=
  List.filterMap_append

@[simp] theorem RetryEvent.delays_retrying (n : Nat) (d : Duration) (text : String)
    (rest : List RetryEvent) : RetryEvent.delays (.retrying n d text :: rest) =
      d :: RetryEvent.delays rest := rfl

@[simp] theorem RetryEvent.delays_starting (n : Nat) :
    RetryEvent.delays [.starting n] = [] := rfl

@[simp] theorem RetryEvent.delays_succeeded (first : Prop) [Decidable first] (n : Nat) :
    RetryEvent.delays (if first then [.succeeded n] else []) = [] := by
  split <;> rfl

@[simp] theorem RetryEvent.delays_stopped (n : Nat) (elapsed : Duration) (reason : Stop)
    (text : String) : RetryEvent.delays [.stopped n elapsed reason text] = [] := by
  unfold RetryEvent.stopped
  split <;> rfl

/-- Where a run stands: the attempt that comes next, or that ended the
run, the pauses with the instants they began at, the last failure that
was retried, and the ending. -/
structure Standing (ε α : Type) where
  invocation : Invocation
  pauses : List (Instant × Duration)
  last : Option ε
  ending : Ending ε α

namespace Standing

/-- Before the first attempt has ended. -/
def initial (i : Invocation) : Standing ε α := ⟨i, [], none, .pending⟩

/-- The pauses without their beginnings. -/
def delays (s : Standing ε α) : List Duration := s.pauses.map Prod.snd

/-- The run is still going. -/
def IsOpen (s : Standing ε α) : Prop := s.ending = .pending

theorem isOpen_initial (i : Invocation) : (initial i : Standing ε α).IsOpen := rfl

variable [Failure ε]

/-- **One more attempt.** After the end nothing changes. -/
def after (p : RetryPolicy) (draws : Draws) (s : Standing ε α) (t : Trial ε α) :
    Standing ε α :=
  match s.ending with
  | .settled _ | .crashed _ => s
  | .pending =>
    match t.result with
    | .error message => { s with ending := .crashed message }
    | .ok (.ok value) => { s with ending := .settled (.ok value) }
    | .ok (.error e) =>
      match afterFailure p s.invocation e t.ended (draws s.invocation.attempt) with
      | .retry delay => ⟨s.invocation.advance, s.pauses ++ [(t.ended, delay)], some e, .pending⟩
      | .stop reason =>
        { s with ending := .settled (.error (reason.toError e s.invocation.attempt
            (s.invocation.elapsed t.ended))) }
      | .overflow reason => { s with ending := .crashed reason.message }

/-- All the attempts of a list, one after the other. -/
def afterAll (p : RetryPolicy) (draws : Draws) (s : Standing ε α) (ts : List (Trial ε α)) :
    Standing ε α :=
  ts.foldl (after p draws) s

variable {p : RetryPolicy} {draws : Draws} {s : Standing ε α} {t : Trial ε α}
  {ts : List (Trial ε α)}

@[simp] theorem afterAll_nil : s.afterAll p draws [] = s := rfl

@[simp] theorem afterAll_cons : s.afterAll p draws (t :: ts) =
    (s.after p draws t).afterAll p draws ts := rfl

@[simp] theorem afterAll_append (us : List (Trial ε α)) : s.afterAll p draws (ts ++ us) =
    (s.afterAll p draws ts).afterAll p draws us := List.foldl_append

/-- Nothing happens after the end. -/
theorem after_of_not_isOpen (h : ¬ s.IsOpen) : s.after p draws t = s := by
  unfold after
  cases hend : s.ending with
  | pending => exact absurd hend h
  | settled outcome => rfl
  | crashed message => rfl

theorem afterAll_of_not_isOpen (h : ¬ s.IsOpen) : s.afterAll p draws ts = s := by
  induction ts with
  | nil => rfl
  | cons t ts ih => rw [afterAll_cons, after_of_not_isOpen h, ih]

/-- A run that is going was going all along. -/
theorem isOpen_of_afterAll (h : (s.afterAll p draws ts).IsOpen) : s.IsOpen := by
  by_contra hs
  rw [afterAll_of_not_isOpen hs] at h
  exact hs h

theorem after_crash (h : s.IsOpen) (message : String) (now : Instant) :
    s.after p draws ⟨.error message, now⟩ = { s with ending := .crashed message } := by
  unfold after
  rw [h]

theorem after_value (h : s.IsOpen) (value : α) (now : Instant) :
    s.after p draws ⟨.ok (.ok value), now⟩ = { s with ending := .settled (.ok value) } := by
  unfold after
  rw [h]

/-- A failure is followed by what the rule for failures says. -/
theorem after_failure (p : RetryPolicy) (draws : Draws) (h : s.IsOpen) (e : ε) (now : Instant) :
    s.after p draws ⟨.ok (.error e), now⟩ =
      match afterFailure p s.invocation e now (draws s.invocation.attempt) with
      | .retry delay => ⟨s.invocation.advance, s.pauses ++ [(now, delay)], some e, .pending⟩
      | .stop reason =>
        { s with ending := .settled (.error (reason.toError e s.invocation.attempt
            (s.invocation.elapsed now))) }
      | .overflow reason => { s with ending := .crashed reason.message } := by
  unfold after
  rw [h]

theorem isOpen_of_after (h : (s.after p draws t).IsOpen) : s.IsOpen := by
  by_contra hs
  rw [after_of_not_isOpen hs] at h
  exact hs h

/-- **A run goes on only by a retry.** -/
theorem isOpen_after (h : (s.after p draws t).IsOpen) :
    ∃ e delay, t.result = .ok (.error e) ∧
      afterFailure p s.invocation e t.ended (draws s.invocation.attempt) = .retry delay ∧
      s.after p draws t =
        ⟨s.invocation.advance, s.pauses ++ [(t.ended, delay)], some e, .pending⟩ := by
  have hs : s.IsOpen := isOpen_of_after h
  obtain ⟨m | e | v, now⟩ := t
  · rw [after_crash hs] at h
    cases h
  · rw [after_failure p draws hs] at h ⊢
    cases hdecision : afterFailure p s.invocation e now (draws s.invocation.attempt) with
    | retry delay => exact ⟨e, delay, rfl, hdecision, rfl⟩
    | stop reason => rw [hdecision] at h; cases h
    | overflow reason => rw [hdecision] at h; cases h
  · rw [after_value hs] at h
    cases h

/-- The first attempt and the deadline are fixed at the beginning. -/
theorem afterAll_fixed (p : RetryPolicy) (draws : Draws) (s : Standing ε α)
    (ts : List (Trial ε α)) : (s.afterAll p draws ts).invocation.firstAttempt =
      s.invocation.firstAttempt ∧
    (s.afterAll p draws ts).invocation.deadline = s.invocation.deadline := by
  induction ts generalizing s with
  | nil => exact ⟨rfl, rfl⟩
  | cons t ts ih =>
    rw [afterAll_cons, (ih _).1, (ih _).2]
    unfold after
    split
    · exact ⟨rfl, rfl⟩
    · exact ⟨rfl, rfl⟩
    · split
      · exact ⟨rfl, rfl⟩
      · exact ⟨rfl, rfl⟩
      · split <;> exact ⟨rfl, rfl⟩

/-- An open run has counted its attempts, up to the largest 32-bit
count. -/
theorem afterAll_attempt (hs : s.invocation.attempt ≤ maxCount32)
    (h : (s.afterAll p draws ts).IsOpen) :
    (s.afterAll p draws ts).invocation.attempt =
      min (s.invocation.attempt + ts.length) maxCount32 := by
  induction ts generalizing s with
  | nil =>
    rw [afterAll_nil, List.length_nil, Nat.add_zero]
    omega
  | cons t ts ih =>
    obtain ⟨e, delay, -, -, hafter⟩ := isOpen_after (isOpen_of_afterAll h)
    have hadvance : (s.after p draws t).invocation.attempt =
        min (s.invocation.attempt + 1) maxCount32 := by
      rw [hafter]
      rfl
    rw [afterAll_cons, ih (by omega) h, hadvance, List.length_cons]
    omega

end Standing

/-! ## The standing of a chronicle -/

namespace Chronicle

variable [Failure ε] {o : RetryOptions} {draws : Draws} {c : Chronicle ε α}

/-- Where the run of a chronicle stands. -/
def standing (o : RetryOptions) (draws : Draws) (c : Chronicle ε α) : Standing ε α :=
  (Standing.initial (o.begin c.first)).afterAll o.policy draws c.trials

theorem standing_empty_started (now : Instant) :
    ((empty : Chronicle ε α).started now).standing o draws = .initial (o.begin now) := rfl

theorem standing_started (h : c.starts ≠ []) (now : Instant) :
    (c.started now).standing o draws = c.standing o draws := by
  unfold standing
  rw [first_started h, started_trials]

theorem standing_closed (now : Instant) (result : Except String (Except ε α)) :
    (c.closed now result).standing o draws =
      (c.standing o draws).after o.policy draws ⟨result, now⟩ := by
  unfold standing
  rw [first_closed, closed_trials, Standing.afterAll_append]
  rfl

/-- The first attempt of a run is the first of its chronicle. -/
theorem standing_firstAttempt (o : RetryOptions) (draws : Draws) (c : Chronicle ε α) :
    (c.standing o draws).invocation.firstAttempt = c.first :=
  (Standing.afterAll_fixed _ _ _ _).1

/-- An open run is at the attempt after those that have ended. -/
theorem standing_attempt (h : (c.standing o draws).IsOpen) :
    (c.standing o draws).invocation.attempt = min (c.trials.length + 1) maxCount32 := by
  unfold standing at h ⊢
  rw [Standing.afterAll_attempt (show 1 ≤ maxCount32 by decide) h, Nat.add_comm]
  rfl

/-- The last attempt brought the run to its end; `delays` are those the
run has asked for. -/
structure ClosedByAttempt (o : RetryOptions) (draws : Draws) (c : Chronicle ε α)
    (delays : List Duration) (ending : Ending ε α) : Prop where
  complete : c.starts.length = c.trials.length
  wasOpen : ∃ earlier t, c.trials = earlier ++ [t] ∧
    ((Standing.initial (o.begin c.first)).afterAll o.policy draws earlier).IsOpen
  delays_eq : (c.standing o draws).delays = delays
  ending_eq : (c.standing o draws).ending = ending

/-- The token brought the run to its end at an instant. -/
structure ClosedByToken (o : RetryOptions) (draws : Draws) (c : Chronicle ε α)
    (now : Instant) (ending : Ending ε α) : Prop where
  hasToken : o.hasToken = true
  isOpen : (c.standing o draws).IsOpen
  ending_eq : ∃ n, (c.starts.length ≤ maxCount32 → n = c.starts.length) ∧
    ending = .settled (.error (.cancelled (c.standing o draws).last n
      (if c.starts = [] then .zero else now.since c.first)))

end Chronicle

end ResilientCalls
