import Mathlib.Data.List.TakeWhile
import ResilientCalls.Proofs.Retry.Agreement
import ResilientCalls.Proofs.Retry.Sleeping
import ResilientCalls.Proofs.Retry.Verdict
/-!
# Cancelling a blocking run

A blocking run looks at its token before the first attempt and throughout
every sleep, never in between. Set beside the same run without a token, the
effect is as if it looked before every attempt: it makes the attempts of
the other run up to the first that would start with the token cancelled
(`Interrupts`). An attempt that asks for no pause ends both runs in the same
way, however late it is; a pause that the cancellation falls into, or finds
already begun, is the end of the run, and the failure before it is
reported. A token that is never cancelled makes no difference.
-/

namespace ResilientCalls

variable {σ ε α : Type}

/-- The work with a token that is cancelled from an instant on, or never. -/
def BlockingWork.cancelledAt (w : BlockingWork σ ε α) (c : Option Instant) :
    BlockingWork σ ε α :=
  { w with cancelledFrom := fun _ => c }

/-- The same options without a token. -/
def RetryOptions.withoutToken (o : RetryOptions) : RetryOptions := { o with hasToken := false }

/-! ## Chronicles from an attempt on -/

namespace Chronicle

/-- One chronicle after the other. -/
def append (ch d : Chronicle ε α) : Chronicle ε α :=
  ⟨ch.starts ++ d.starts, ch.trials ++ d.trials⟩

theorem append_assoc (ch d d' : Chronicle ε α) :
    (ch.append d).append d' = ch.append (d.append d') := by
  simp only [append, List.append_assoc]

/-- What an attempt adds does not depend on what there was. -/
theorem started_shown (ch : Chronicle ε α) (now ended : Instant) (progress : Progress ε α) :
    (ch.started now).shown ended progress =
      ch.append ((empty.started now).shown ended progress) := by
  cases progress <;> simp [append, empty, started, closed]

end Chronicle

/-- The end of a run whose chronicle had something in it before. -/
def BlockingEnd.onto (ch : Chronicle ε α) (b : BlockingEnd (σ × Chronicle ε α) ε α) :
    BlockingEnd (σ × Chronicle ε α) ε α :=
  { b with world := (b.world.1, ch.append b.world.2) }

/-- The end of a run before which one more attempt was made and asked for a
pause. -/
def BlockingEnd.afterAttempt (start : Instant) (t : Trial ε α) (event : RetryEvent)
    (b : BlockingEnd (σ × Chronicle ε α) ε α) : BlockingEnd (σ × Chronicle ε α) ε α :=
  ⟨b.now, (b.world.1, ⟨start :: b.world.2.starts, t :: b.world.2.trials⟩), event :: b.events,
    b.ending⟩

/-! ## Pauses -/

/-- A pause: the failure it follows, when it begins, and how long it is to
last. -/
structure Pause (ε : Type) where
  failure : ε
  began : Instant
  delay : Duration
deriving DecidableEq

/-- When a pause ends if nothing cuts it short. -/
def Pause.ends (q : Pause ε) : Instant := q.began.plus q.delay

variable [Failure ε]

/-- **The pause that an attempt asks for,** if it fails and may be made
again. -/
def Trial.pause? (t : Trial ε α) (p : RetryPolicy) (draws : Draws) (i : Invocation) :
    Option (Pause ε) :=
  match t.result with
  | .ok (.error e) =>
    match afterFailure p i e t.ended (draws i.attempt) with
    | .retry delay => some ⟨e, t.ended, delay⟩
    | .stop _ | .overflow _ => none
  | .ok (.ok _) | .error _ => none

/-- The pause that attempt `k` of a chronicle asks for, counted from
zero. -/
def Chronicle.pause? (ch : Chronicle ε α) (p : RetryPolicy) (draws : Draws) (i : Invocation)
    (k : Nat) : Option (Pause ε) :=
  ch.trials[k]?.bind fun t => t.pause? p draws (Invocation.advance^[k] i)

section Pauses

variable {ch : Chronicle ε α} {p : RetryPolicy} {draws : Draws} {i : Invocation} {e : ε}
  {ended start : Instant} {starts : List Instant} {trials : List (Trial ε α)} {delay : Duration}
  {t : Trial ε α} {k : Nat}

theorem Trial.pause?_of_retry (h : afterFailure p i e ended (draws i.attempt) = .retry delay) :
    (⟨.ok (.error e), ended⟩ : Trial ε α).pause? p draws i = some ⟨e, ended, delay⟩ := by
  simp only [Trial.pause?, h]

namespace Chronicle

theorem pause?_zero :
    (⟨starts, t :: trials⟩ : Chronicle ε α).pause? p draws i 0 = t.pause? p draws i := rfl

theorem pause?_succ :
    (⟨start :: starts, t :: trials⟩ : Chronicle ε α).pause? p draws i (k + 1) =
      (⟨starts, trials⟩ : Chronicle ε α).pause? p draws i.advance k := by
  simp [pause?, Function.iterate_succ_apply]

theorem pause?_eq_none (h : ch.trials.length ≤ k) : ch.pause? p draws i k = none := by
  simp [pause?, h]

/-- There are no more pauses than attempts that ended. -/
theorem forall_pause? {P : Pause ε → Bool}
    (h : ∀ k < ch.trials.length, (ch.pause? p draws i k).all P = true) (k : Nat) (q : Pause ε)
    (hq : ch.pause? p draws i k = some q) : P q = true := by
  rcases Nat.lt_or_ge k ch.trials.length with hlt | hge
  · have hall := h k hlt
    rwa [hq] at hall
  · rw [pause?_eq_none hge] at hq
    cases hq

end Chronicle

end Pauses

namespace Blocking

variable {w : BlockingWork σ ε α} {o : RetryOptions} {p : RetryPolicy} {draws : Draws}
  {i : Invocation} {c : Option Instant} {now ended wake : Instant} {fuel : Nat} {e : ε}
  {delay : Duration} {inner inner' : σ}

/-! ## Rounds of the loop -/

/-- A loop adds to the chronicle that it begins with. -/
theorem loop_onto (w : BlockingWork σ ε α) (o : RetryOptions) (draws : Draws) (fuel : Nat)
    (i : Invocation) (now : Instant) (inner : σ) (ch : Chronicle ε α) :
    loop w.chronicled o draws fuel i now (inner, ch) =
      (loop w.chronicled o draws fuel i now (inner, .empty)).onto ch := by
  induction fuel generalizing i now inner ch with
  | zero => simp [loop, BlockingEnd.onto, Chronicle.append, Chronicle.empty]
  | succ fuel ih =>
    rcases h : w.call now inner with ⟨_ | ⟨e | v⟩ | m, ended, inner'⟩ <;>
      simp only [loop, BlockingWork.chronicled_call h, Chronicle.started_shown ch]
    · rfl
    · cases afterFailure o.policy i e ended (draws i.attempt) with
      | stop reason | overflow reason => rfl
      | retry delay =>
        simp only [BlockingWork.chronicled_cancelledFrom, BlockingWork.chronicled_wakeups]
        rcases sleep o.hasToken (w.cancelledFrom inner') (w.wakeups inner') delay ended with
          _ | ⟨_ | _, wake⟩
        · rfl
        · rfl
        · -- both go on with what this attempt has added
          dsimp only
          rw [ih _ _ _ (ch.append _), ih _ _ _ ((Chronicle.empty.started now).shown ended _)]
          simp only [BlockingEnd.onto, Chronicle.append_assoc]
    · rfl
    · rfl

/-- A round that ends in another attempt. -/
theorem loop_retry (hcall : w.call now inner = (.finished (.error e), ended, inner'))
    (hdecision : afterFailure o.policy i e ended (draws i.attempt) = .retry delay)
    (hsleep : sleep o.hasToken (w.cancelledFrom inner') (w.wakeups inner') delay ended =
      some (true, wake)) :
    loop w.chronicled o draws (fuel + 1) i now (inner, .empty) =
      (loop w.chronicled o draws fuel i.advance wake (inner', .empty)).afterAttempt now
        ⟨.ok (.error e), ended⟩ (.retrying i.attempt delay (Failure.text e)) := by
  simp only [loop, BlockingWork.chronicled_call hcall, hdecision,
    BlockingWork.chronicled_cancelledFrom, BlockingWork.chronicled_wakeups, hsleep]
  rw [loop_onto]
  rfl

/-- A round whose pause is cancelled. -/
theorem loop_cancelled (hcall : w.call now inner = (.finished (.error e), ended, inner'))
    (hdecision : afterFailure o.policy i e ended (draws i.attempt) = .retry delay)
    (hsleep : sleep o.hasToken (w.cancelledFrom inner') (w.wakeups inner') delay ended =
      some (false, wake)) :
    loop w.chronicled o draws (fuel + 1) i now (inner, .empty) =
      ⟨wake, (inner', ⟨[now], [⟨.ok (.error e), ended⟩]⟩),
        [.retrying i.attempt delay (Failure.text e), .cancelledInBackoff i.attempt],
        .settled (.error (.cancelled (some e) i.attempt (i.elapsed wake)))⟩ := by
  simp only [loop, BlockingWork.chronicled_call hcall, hdecision,
    BlockingWork.chronicled_cancelledFrom, BlockingWork.chronicled_wakeups, hsleep]
  rfl

/-- Whatever comes of it, a round puts its attempt into the chronicle. -/
theorem loop_begins {progress : Progress ε α}
    (hcall : w.call now inner = (progress, ended, inner')) (o : RetryOptions) (draws : Draws)
    (fuel : Nat) (i : Invocation) :
    ∃ d, (loop w.chronicled o draws (fuel + 1) i now (inner, .empty)).world.2 =
      ((Chronicle.empty.started now).shown ended progress).append d := by
  rcases progress with _ | ⟨e | v⟩ | m
  case finished.error =>
    cases hdecision : afterFailure o.policy i e ended (draws i.attempt) with
    | stop reason | overflow reason =>
      exact ⟨.empty, by simp only [loop, BlockingWork.chronicled_call hcall, hdecision]; rfl⟩
    | retry delay =>
      rcases hsleep : sleep o.hasToken (w.cancelledFrom inner') (w.wakeups inner') delay ended with
        _ | ⟨_ | _, wake⟩
      case retry.some.true => exact ⟨_, by rw [loop_retry hcall hdecision hsleep]; rfl⟩
      case retry.some.false => exact ⟨.empty, by rw [loop_cancelled hcall hdecision hsleep]; rfl⟩
      case retry.none =>
        refine ⟨.empty, ?_⟩
        simp only [loop, BlockingWork.chronicled_call hcall, hdecision,
          BlockingWork.chronicled_cancelledFrom, BlockingWork.chronicled_wakeups, hsleep]
        rfl
  all_goals exact ⟨.empty, by simp only [loop, BlockingWork.chronicled_call hcall]; rfl⟩

/-- So a loop begins with an attempt now, if it makes any. -/
theorem eq_of_mem_head?_starts {s : Instant}
    (h : s ∈ (loop w.chronicled o draws fuel i now (inner, .empty)).world.2.starts.head?) :
    s = now := by
  cases fuel with
  | zero => cases h
  | succ fuel =>
    rcases hcall : w.call now inner with ⟨progress, ended, inner'⟩
    obtain ⟨d, hd⟩ := loop_begins hcall o draws fuel i
    rw [hd] at h
    cases progress <;> exact (Option.some.inj h).symm

/-- And an attempt that asks for a pause is in the chronicle with it,
whatever becomes of the pause. -/
theorem loop_pause? (hcall : w.call now inner = (.finished (.error e), ended, inner'))
    (hdecision : afterFailure o.policy i e ended (draws i.attempt) = .retry delay) :
    (loop w.chronicled o draws (fuel + 1) i now (inner, .empty)).world.2.pause? o.policy draws i 0 =
      some ⟨e, ended, delay⟩ := by
  obtain ⟨d, hd⟩ := loop_begins hcall o draws fuel i
  rw [hd, ← Trial.pause?_of_retry (α := α) hdecision]
  rfl

end Blocking

/-! ## A run with a token beside the run without -/

/-- **What a token does to a run:** `cut` is the run whose token is
cancelled from `c` on, `free` the run without a token, each from the
attempt of `i` on. -/
structure Interrupts (c : Option Instant) (p : RetryPolicy) (draws : Draws) (i : Invocation)
    (cut free : BlockingEnd (σ × Chronicle ε α) ε α) : Prop where
  /-- As if the token were looked at before every attempt. -/
  starts_eq : cut.world.2.starts =
    free.world.2.starts.takeWhile fun s => !Blocking.tokenReads c s
  trials_eq : cut.world.2.trials = free.world.2.trials.take cut.world.2.starts.length
  /-- Where no pause is reached, nothing changes. -/
  unnoticed : (∀ k q, cut.world.2.pause? p draws i k = some q →
    Blocking.tokenReads c q.ends = false) → cut = free
  /-- Nor where an attempt asks for none. -/
  undisturbed : ∀ k < cut.world.2.starts.length, cut.world.2.pause? p draws i k = none →
    cut = free
  /-- The pause that is reached is the last thing that happens. -/
  interrupted : ∀ k q t, cut.world.2.pause? p draws i k = some q → c = some t →
    t.nanos ≤ q.ends.nanos → cut.world.2.starts.length = k + 1 ∧
      cut.now = ⟨max t.nanos q.began.nanos⟩ ∧
      cut.ending = .settled (.error (.cancelled (some q.failure)
        (Invocation.advance^[k] i).attempt ((Invocation.advance^[k] i).elapsed cut.now)))

namespace Interrupts

variable {c : Option Instant} {p : RetryPolicy} {draws : Draws} {i : Invocation}
  {b cut free : BlockingEnd (σ × Chronicle ε α) ε α} {now ended : Instant} {e : ε}
  {delay : Duration}

/-- A run that makes one attempt at most, without a pause, is not
disturbed. -/
theorem refl (hstarts : ∀ s ∈ b.world.2.starts, Blocking.tokenReads c s = false)
    (htrials : b.world.2.trials.length ≤ b.world.2.starts.length)
    (hpause : ∀ k, b.world.2.pause? p draws i k = none) : Interrupts c p draws i b b where
  starts_eq := by
    refine (List.takeWhile_eq_self_iff.2 fun s hs => ?_).symm
    rw [hstarts s hs]
    rfl
  trials_eq := (List.take_of_length_le htrials).symm
  unnoticed _ := rfl
  undisturbed _ _ _ := rfl
  interrupted k q t h := by
    rw [hpause k] at h
    cases h

/-- Nor is one whose last attempt asks for no pause, or hangs. -/
theorem ofLast (last : Option (Trial ε α)) (hread : Blocking.tokenReads c now = false)
    (hb : b.world.2 = ⟨[now], last.toList⟩) (hlast : ∀ t ∈ last, t.pause? p draws i = none) :
    Interrupts c p draws i b b := by
  refine refl ?_ ?_ fun k => ?_
  · simpa [hb] using hread
  · rw [hb]
    cases last <;> simp
  · rw [hb]
    cases last with
    | none => exact Chronicle.pause?_eq_none (Nat.zero_le k)
    | some t =>
      cases k with
      | zero => exact hlast t rfl
      | succ k => exact Chronicle.pause?_eq_none (Nat.le_add_left 1 k)

/-- A pause that is not reached leaves the rest as it is. -/
theorem afterAttempt {event : RetryEvent} (h : Interrupts c p draws i.advance cut free)
    (hread : Blocking.tokenReads c now = false)
    (hdecision : afterFailure p i e ended (draws i.attempt) = .retry delay)
    (hpause : Blocking.tokenReads c (ended.plus delay) = false) :
    Interrupts c p draws i (cut.afterAttempt now ⟨.ok (.error e), ended⟩ event)
      (free.afterAttempt now ⟨.ok (.error e), ended⟩ event) where
  starts_eq := by
    simp only [BlockingEnd.afterAttempt, h.starts_eq, List.takeWhile_cons, hread, Bool.not_false,
      if_true]
  trials_eq := by
    simp only [BlockingEnd.afterAttempt, List.length_cons, List.take_succ_cons]
    exact congrArg _ h.trials_eq
  unnoticed hnone := by
    rw [h.unnoticed fun k q hq => hnone (k + 1) q (Chronicle.pause?_succ.trans hq)]
  undisturbed k hk hnone := by
    cases k with
    | zero =>
      rw [BlockingEnd.afterAttempt, Chronicle.pause?_zero, Trial.pause?_of_retry hdecision] at hnone
      cases hnone
    | succ k =>
      rw [BlockingEnd.afterAttempt, Chronicle.pause?_succ] at hnone
      rw [h.undisturbed k (Nat.lt_of_succ_lt_succ hk) hnone]
  interrupted k q t hq hc hle := by
    cases k with
    | zero =>
      rw [BlockingEnd.afterAttempt, Chronicle.pause?_zero, Trial.pause?_of_retry hdecision] at hq
      obtain rfl := Option.some.inj hq
      rw [hc] at hpause
      exact absurd hle (of_decide_eq_false hpause)
    | succ k =>
      rw [BlockingEnd.afterAttempt, Chronicle.pause?_succ] at hq
      obtain ⟨hlength, hnow, hending⟩ := h.interrupted k q t hq hc hle
      exact ⟨congrArg Nat.succ hlength, hnow, hending⟩

/-- A pause that is reached ends the run; the next attempt of the run
without the token starts with the token cancelled. -/
theorem ofReached {event : RetryEvent} {t : Instant}
    (hread : Blocking.tokenReads (some t) now = false)
    (hdecision : afterFailure p i e ended (draws i.attempt) = .retry delay)
    (hreached : t.nanos ≤ (ended.plus delay).nanos)
    (hcut : cut.world.2 = ⟨[now], [⟨.ok (.error e), ended⟩]⟩)
    (hnow : cut.now = ⟨max t.nanos ended.nanos⟩)
    (hending : cut.ending = .settled (.error (.cancelled (some e) i.attempt (i.elapsed cut.now))))
    (hnext : ∀ s ∈ free.world.2.starts.head?, s = ended.plus delay) :
    Interrupts (some t) p draws i cut (free.afterAttempt now ⟨.ok (.error e), ended⟩ event) := by
  have hpause : cut.world.2.pause? p draws i 0 = some ⟨e, ended, delay⟩ := by
    rw [hcut, Chronicle.pause?_zero, Trial.pause?_of_retry hdecision]
  refine ⟨?_, ?_, fun hnone => ?_, fun k hk hnone => ?_, fun k q t' hq hc hle => ?_⟩
  · have hstop : free.world.2.starts.takeWhile
        (fun s => !Blocking.tokenReads (some t) s) = [] := by
      cases hstarts : free.world.2.starts with
      | nil => rfl
      | cons s rest =>
        obtain rfl := hnext s (by rw [hstarts]; rfl)
        have hcancelled : Blocking.tokenReads (some t) (ended.plus delay) = true :=
          decide_eq_true hreached
        rw [List.takeWhile_cons_of_neg (by simp [hcancelled])]
    simp only [BlockingEnd.afterAttempt, hcut, List.takeWhile_cons, hread, Bool.not_false,
      if_true, hstop]
  · simp [BlockingEnd.afterAttempt, hcut]
  · have hlater := hnone 0 _ hpause
    exact absurd hreached (of_decide_eq_false hlater)
  · rw [hcut] at hk
    obtain rfl : k = 0 := Nat.lt_one_iff.1 hk
    rw [hpause] at hnone
    cases hnone
  · have hk : k < cut.world.2.trials.length := by
      by_contra hge
      rw [Chronicle.pause?_eq_none (Nat.not_lt.1 hge)] at hq
      cases hq
    rw [hcut] at hk
    obtain rfl : k = 0 := Nat.lt_one_iff.1 hk
    obtain rfl := Option.some.inj (hpause.symm.trans hq)
    obtain rfl := Option.some.inj hc
    exact ⟨by rw [hcut]; rfl, hnow, hending⟩

end Interrupts

namespace Blocking

variable {w : BlockingWork σ ε α} {o : RetryOptions} {draws : Draws} {i : Invocation}
  {c : Option Instant} {now ended : Instant} {fuel : Nat} {e : ε} {delay : Duration}
  {inner inner' : σ}

/-- **The loop with a token beside the loop without,** from an attempt on
that starts before the cancellation. The induction is on the attempts that
may still be made. -/
theorem loop_interrupts (hread : tokenReads c now = false)
    (hcount : ∀ k q, (loop (w.cancelledAt c).chronicled o.withToken draws fuel i now
      (inner, .empty)).world.2.pause? o.policy draws i k = some q → q.ends.isCountable = true) :
    Interrupts c o.policy draws i
      (loop (w.cancelledAt c).chronicled o.withToken draws fuel i now (inner, .empty))
      (loop w.chronicled o.withoutToken draws fuel i now (inner, .empty)) := by
  induction fuel generalizing i now inner with
  | zero =>
    exact .refl (by simp [loop, Chronicle.empty]) (by simp [loop, Chronicle.empty])
      (fun k => Chronicle.pause?_eq_none (Nat.zero_le k))
  | succ fuel ih =>
    rcases hcall : w.call now inner with ⟨_ | ⟨e | v⟩ | m, ended, inner'⟩
    case finished.error =>
      have hcall' : (w.cancelledAt c).call now inner = (.finished (.error e), ended, inner') :=
        hcall
      cases hdecision : afterFailure o.policy i e ended (draws i.attempt) with
      | stop reason | overflow reason =>
        have hnone : (⟨.ok (.error e), ended⟩ : Trial ε α).pause? o.policy draws i = none := by
          simp only [Trial.pause?, hdecision]
        have hstop : afterFailure o.withToken.policy i e ended (draws i.attempt) = _ := hdecision
        have hstop' : afterFailure o.withoutToken.policy i e ended (draws i.attempt) = _ :=
          hdecision
        simp only [loop, BlockingWork.chronicled_call hcall, BlockingWork.chronicled_call hcall',
          hstop, hstop']
        exact .ofLast (some ⟨.ok (.error e), ended⟩) hread rfl (by simpa using hnone)
      | retry delay =>
        have hcountable : (ended.plus delay).isCountable = true :=
          hcount 0 _ (loop_pause? (o := o.withToken) hcall' hdecision)
        rw [loop_retry (o := o.withoutToken) hcall hdecision rfl]
        cases hpause : tokenReads c (ended.plus delay) with
        | false =>
          have hsleep := sleep_of_unread hpause hcountable (w.wakeups inner')
          rw [loop_retry (o := o.withToken) hcall' hdecision hsleep] at hcount ⊢
          have hrest := ih hpause fun k q hq => hcount (k + 1) q (Chronicle.pause?_succ.trans hq)
          exact hrest.afterAttempt hread hdecision hpause
        | true =>
          obtain ⟨t, rfl⟩ : ∃ t, c = some t := by
            cases c with
            | none => cases hpause
            | some t => exact ⟨t, rfl⟩
          have hreached : t.nanos ≤ (ended.plus delay).nanos := of_decide_eq_true hpause
          have hsleep := sleep_of_read hreached hcountable (w.wakeups inner')
          rw [loop_cancelled (o := o.withToken) hcall' hdecision hsleep]
          exact .ofReached hread hdecision hreached rfl rfl rfl fun s hs =>
            eq_of_mem_head?_starts hs
    all_goals
      have hcall' : (w.cancelledAt c).call now inner = (_, ended, inner') := hcall
      simp only [loop, BlockingWork.chronicled_call hcall, BlockingWork.chronicled_call hcall']
    case waiting => exact .ofLast none hread rfl (by simp)
    case finished.ok =>
      exact .ofLast (some ⟨.ok (.ok v), ended⟩) hread rfl (by simp [Trial.pause?])
    case crashed => exact .ofLast (some ⟨.error m, ended⟩) hread rfl (by simp [Trial.pause?])

/-- **The run with a token beside the run without,** if it begins before
the cancellation. -/
theorem runWithin_interrupts {limit : Nat} {world : σ} (hread : tokenReads c now = false)
    (hcount : ∀ k q, (chronicle limit (w.cancelledAt c) o.withToken draws now world).pause?
      o.policy draws (o.begin now) k = some q → q.ends.isCountable = true) :
    Interrupts c o.policy draws (o.begin now)
      (runWithin limit (w.cancelledAt c).chronicled o.withToken draws now (world, .empty))
      (runWithin limit w.chronicled o.withoutToken draws now (world, .empty)) := by
  have hbegins : runWithin limit (w.cancelledAt c).chronicled o.withToken draws now
      (world, .empty) =
        loop (w.cancelledAt c).chronicled o.withToken draws limit (o.begin now) now
          (world, .empty) := by
    refine if_neg ?_
    change ¬ (true && tokenReads c now) = true
    simp [hread]
  rw [chronicle, hbegins] at hcount
  rw [hbegins]
  exact loop_interrupts hread hcount

/-- A run whose token is cancelled at its beginning does nothing to its
work. -/
theorem chronicle_of_read (hread : tokenReads c now = true) (limit : Nat)
    (w : BlockingWork σ ε α) (world : σ) :
    chronicle limit (w.cancelledAt c) o.withToken draws now world = .empty := by
  have hstop : (o.withToken.hasToken &&
      tokenReads ((w.cancelledAt c).chronicled.cancelledFrom (world, .empty)) now) = true := hread
  rw [chronicle, runWithin, if_pos hstop]

/-- Even the first attempt of a run without a token starts then. -/
theorem takeWhile_starts_of_read (hread : tokenReads c now = true) (limit : Nat)
    (w : BlockingWork σ ε α) (world : σ) :
    (chronicle limit w o.withoutToken draws now world).starts.takeWhile
      (fun s => !tokenReads c s) = [] := by
  cases hall : (chronicle limit w o.withoutToken draws now world).starts with
  | nil => rfl
  | cons s rest =>
    have hs : s ∈ (chronicle limit w o.withoutToken draws now world).starts.head? := by
      rw [hall]
      rfl
    obtain rfl := eq_of_mem_head?_starts hs
    rw [List.takeWhile_cons_of_neg (by simp [hread])]

end Blocking

open Blocking in
/-- **Cancelling a blocking run.** Whatever the policy, the work, the draws,
the spurious wakeups and the instant from which the token is cancelled, if
it ever is: a run with the token is set beside the same run without, where
the clock counts to the end of every pause of the former. It makes the
attempts of the other run up to the first that would start with the token
cancelled, none if that is the first of all. If one of them asks for no
pause, be it a success, a failure that ends the run, or an attempt that
hangs or breaks down, then the two runs are the same. If the cancellation
comes before the end of the pause after attempt `k`, then no attempt
follows, and the run reports the cancellation with the failure of that
attempt, as soon as both have happened. And a token that is never cancelled
makes no difference at all. -/
theorem cancellation_interrupts (o : RetryOptions) (draws : Draws) (w : BlockingWork σ ε α)
    (c : Option Instant) (limit : Nat) (now : Instant) (world : σ)
    (hcount : ∀ k q, (chronicle limit (w.cancelledAt c) o.withToken draws now world).pause?
      o.policy draws (o.begin now) k = some q → q.ends.isCountable = true) :
    let cut := runWithin limit (w.cancelledAt c) o.withToken draws now world
    let free := runWithin limit w o.withoutToken draws now world
    let made := chronicle limit (w.cancelledAt c) o.withToken draws now world
    let all := chronicle limit w o.withoutToken draws now world
    (tokenReads c now = true →
      made.starts = [] ∧ cut.ending = .settled (.error (.cancelled none 0 .zero))) ∧
    made.starts = all.starts.takeWhile (fun s => !tokenReads c s) ∧
    made.trials = all.trials.take made.starts.length ∧
    (∀ k < made.starts.length, made.pause? o.policy draws (o.begin now) k = none →
      cut = free ∧ made = all) ∧
    (∀ k q t, made.pause? o.policy draws (o.begin now) k = some q → c = some t →
      t.nanos ≤ q.ends.nanos →
      made.starts.length = k + 1 ∧ cut.now = ⟨max t.nanos q.began.nanos⟩ ∧
      cut.ending = .settled (.error
        (.cancelled (some q.failure) (min (k + 1) maxCount32) (cut.now.since now)))) ∧
    (c = none → cut = free ∧ made = all) := by
  intro cut free made all
  cases hread : tokenReads c now with
  | true =>
    obtain ⟨hending, hstarts⟩ := runWithin_cancelled (o := o.withToken) rfl draws (w.cancelledAt c)
      limit now world hread
    have hmade : made = .empty := chronicle_of_read hread limit w world
    have hnone : ∀ k, made.pause? o.policy draws (o.begin now) k = none := fun k => by
      rw [hmade]
      exact Chronicle.pause?_eq_none (Nat.zero_le k)
    refine ⟨fun _ => ⟨hstarts, hending⟩,
      hstarts.trans (takeWhile_starts_of_read hread limit w world).symm, by rw [hmade]; rfl,
      fun k hk => ?_, fun k q t hq => ?_, ?_⟩
    · rw [hmade] at hk
      cases hk
    · rw [hnone k] at hq
      cases hq
    · rintro rfl
      cases hread
  | false =>
    have h := runWithin_interrupts hread hcount
    have hcut := runWithin_eq_forget limit (w.cancelledAt c) o.withToken draws now world
    have hsame : runWithin limit (w.cancelledAt c).chronicled o.withToken draws now
        (world, .empty) = runWithin limit w.chronicled o.withoutToken draws now (world, .empty) →
        cut = free ∧ made = all := fun heq =>
      ⟨hcut.trans ((congrArg BlockingEnd.forget heq).trans (runWithin_eq_forget ..).symm),
        congrArg (fun b => b.world.2) heq⟩
    refine ⟨fun htrue => absurd htrue Bool.false_ne_true, h.starts_eq, h.trials_eq,
      fun k hk hnone => hsame (h.undisturbed k hk hnone), fun k q t hq hc hle => ?_, ?_⟩
    · obtain ⟨hlength, hnow, hending⟩ := h.interrupted k q t hq hc hle
      have hnowEq : cut.now = _ := congrArg BlockingEnd.now hcut
      have hendingEq : cut.ending = _ := congrArg BlockingEnd.ending hcut
      have hattempt : (o.begin now).attempt ≤ maxCount32 := show 1 ≤ maxCount32 by decide
      rw [Invocation.advance_iterate hattempt] at hending
      refine ⟨hlength, hnowEq.trans hnow, ?_⟩
      rw [hendingEq, hnowEq, Nat.add_comm k 1]
      exact hending
    · rintro rfl
      exact hsame (h.unnoticed fun k q _ => rfl)

/-- Work that takes a fiftieth of a second to fail, on a thread that is woken
twice for no reason. -/
def slowlyUnavailable : BlockingWork Unit String Nat where
  call now _ := (.finished (.error "UNAVAILABLE"), now.plus (.ofMillis 20), ())
  cancelledFrom _ := none
  wakeups _ := [⟨50000000⟩, ⟨60000000⟩]

open Blocking in
/-- Two attempts, cancelled during the first, in the pause, during the last,
and never. -/
theorem cancellation_interrupts_twoAttempts :
    let ending := fun c => (runWithin 2 (slowlyUnavailable.cancelledAt c) twoAttempts.withToken
      .still ⟨0⟩ ()).ending
    ending (some ⟨10000000⟩) =
      .settled (.error (.cancelled (some "UNAVAILABLE") 1 ⟨20000000⟩)) ∧
    ending (some ⟨70000000⟩) =
      .settled (.error (.cancelled (some "UNAVAILABLE") 1 ⟨70000000⟩)) ∧
    ending (some ⟨130000000⟩) =
      .settled (.error (.attemptsExhausted "UNAVAILABLE" 2 ⟨140000000⟩)) ∧
    ending none = .settled (.error (.attemptsExhausted "UNAVAILABLE" 2 ⟨140000000⟩)) := by
  intro ending
  have hcuts := fun c hcount => cancellation_interrupts twoAttempts .still slowlyUnavailable c 2
    ⟨0⟩ () (Chronicle.forall_pause? (P := fun q => q.ends.isCountable) hcount)
  have hfree : (runWithin 2 slowlyUnavailable twoAttempts.withoutToken .still ⟨0⟩ ()).ending =
      .settled (.error (.attemptsExhausted "UNAVAILABLE" 2 ⟨140000000⟩)) := by decide +kernel
  obtain ⟨-, -, -, -, hduring, -⟩ := hcuts (some ⟨10000000⟩) (by decide +kernel)
  obtain ⟨-, -, -, -, hpause, -⟩ := hcuts (some ⟨70000000⟩) (by decide +kernel)
  obtain ⟨-, -, -, hlast, -, -⟩ := hcuts (some ⟨130000000⟩) (by decide +kernel)
  obtain ⟨-, -, -, -, -, hnever⟩ := hcuts none (by decide +kernel)
  -- the pause after the first attempt lasts from the end of that attempt for a tenth of a second
  let q : Pause String := ⟨"UNAVAILABLE", ⟨20000000⟩, ⟨100000000⟩⟩
  obtain ⟨-, hnow, hending⟩ := hduring 0 q _ (by decide +kernel) rfl (by decide)
  obtain ⟨-, hnow', hending'⟩ := hpause 0 q _ (by decide +kernel) rfl (by decide)
  rw [hnow] at hending
  rw [hnow'] at hending'
  refine ⟨hending, hending', ?_, ?_⟩
  · rw [← hfree]
    exact congrArg BlockingEnd.ending (hlast 1 (by decide +kernel) (by decide +kernel)).1
  · rw [← hfree]
    exact congrArg BlockingEnd.ending (hnever rfl).1

end ResilientCalls
