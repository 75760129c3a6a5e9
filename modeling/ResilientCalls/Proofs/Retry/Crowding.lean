import Mathlib.Data.List.Nodup
import ResilientCalls.Proofs.Retry.Bookkeeping
import ResilientCalls.Proofs.Retry.Following
import ResilientCalls.Proofs.Retry.Jitter
/-!
# Crowded instants

A poll makes transitions until something has to be waited for, and where
nothing has to be, it goes on at its instant for ever: attempts that fail
as soon as they are started, after pauses that jitter took away altogether,
crowd the instant, and neither a timer nor a deadline comes
(`Course.follow_restless`). So whoever wants a run to come to its end has
to know that no instant sees more attempts start than can be counted
(`Chronicle.Uncrowded`). A policy that limits its attempts sees to that.
So does a deadline, if from some attempt on jitter leaves something of
every delay: each later attempt then starts after the one before it. Jitter
of at most a half always leaves something.
-/

namespace ResilientCalls

variable {σ τ ε α : Type}

/-- A timer for some time fires later, up to the last instant that timers
wait for. -/
theorem Instant.lt_timer {now : Instant} {t : Duration} (ht : 0 < t.nanos)
    (hlast : now.nanos < lastFiring.nanos) : now.nanos < (now.timer t).nanos := by
  have hahead : now.nanos < (now.ahead t).nanos := by
    simp only [ahead, plus, Duration.shorter, Duration.furthest, Duration.ofSeconds,
      Duration.perSecond]
    omega
  have hfiring := le_firing (now.ahead t)
  unfold timer
  rw [if_neg (by simp [Duration.isZero]; omega)]
  simp only [earlier]
  omega

/-! ## What jitter makes of delays -/

namespace RetryPolicy

/-- Every delay has one with jitter. -/
def Computes (p : RetryPolicy) (draws : Draws) : Prop :=
  ∀ (n : Nat) (delay : Duration), delay.nanos ≤ (p.baseDelay n).nanos →
    ∃ jittered, p.jittered (draws n) delay = .ok jittered

/-- From attempt `k` on jitter takes no delay away altogether. -/
def LeavesSomeFrom (p : RetryPolicy) (draws : Draws) (k : Nat) : Prop :=
  ∀ (n : Nat) (delay jittered : Duration), k ≤ n → 0 < delay.nanos →
    delay.nanos ≤ (p.baseDelay n).nanos → p.jittered (draws n) delay = .ok jittered →
      0 < jittered.nanos

/-- From some attempt on, which is counted in 32 bits, jitter takes no
delay away altogether. -/
def LeavesSome (p : RetryPolicy) (draws : Draws) : Prop :=
  ∃ k ≤ maxCount32, p.LeavesSomeFrom draws k

/-- Jitter takes every delay away altogether. -/
def TakesAll (p : RetryPolicy) (draws : Draws) : Prop :=
  ∀ (n : Nat) (delay : Duration), delay.nanos ≤ (p.baseDelay n).nanos →
    p.jittered (draws n) delay = .ok .zero

variable {p : RetryPolicy}

/-- Without jitter every delay is computed, and stays as it is. -/
theorem computes_of_isZero (h : p.jitter.isZero = true) (draws : Draws) : p.Computes draws :=
  fun n delay _ => ⟨delay, jittered_of_isZero h (draws n) delay⟩

/-- With real draws every delay can be computed, if the longest interval is
at most `2^23` seconds. -/
theorem computes_of_maximum_le (hp : p.validate = .ok ())
    (hmaximum : p.maximumInterval.nanos ≤ Duration.exactUpTo.nanos) {draws : Draws}
    (hdraws : ∀ n, (draws n).IsDraw) : p.Computes draws := by
  intro n delay hdelay
  obtain ⟨d, hd, -⟩ := shortens_of_maximum_le hp hmaximum (hdraws n) hdelay
  exact ⟨d, hd⟩

theorem leavesSome_of_isZero (h : p.jitter.isZero = true) (draws : Draws) :
    p.LeavesSome draws := by
  refine ⟨0, Nat.zero_le _, ?_⟩
  intro n delay jittered _ hpos _ hjittered
  rw [jittered_of_isZero h] at hjittered
  rwa [← Except.ok.inj hjittered]

/-- **Real draws leave something of every delay,** if the jitter is at most
a half. -/
theorem leavesSome_of_jitter_le (hp : p.validate = .ok ()) (hhalf : p.jitter.le .half = true)
    (hlong : p.maximumInterval.nanos ≤ Duration.longest.nanos) {draws : Draws}
    (hdraws : ∀ n, (draws n).IsDraw) : p.LeavesSome draws := by
  refine ⟨0, Nat.zero_le _, ?_⟩
  intro n delay jittered _ hpos hdelay hjittered
  have hmaximum : delay.nanos ≤ p.maximumInterval.nanos :=
    le_trans hdelay ((waits_of_validate hp).baseDelay_le n)
  exact jittered_pos hp hhalf (hdraws n) (le_trans hmaximum hlong) hpos hjittered

end RetryPolicy

/-! ## Attempts of one instant -/

namespace Chronicle

/-- No instant sees more attempts start than can be counted. -/
def Uncrowded (c : Chronicle ε α) : Prop :=
  ∀ t, c.starts.count t ≤ maxCount32

/-- Each attempt was started later than those before it. -/
def Increasing (c : Chronicle ε α) : Prop :=
  c.starts.Pairwise fun s t => s.nanos < t.nanos

variable {c c' : Chronicle ε α}

/-- Fewer attempts crowd no instant either. -/
theorem Uncrowded.of_prefix (h : c'.Uncrowded) (hmore : c.starts <+: c'.starts) : c.Uncrowded :=
  fun t => le_trans (hmore.sublist.count_le t) (h t)

/-- **Attempts that start one after the other crowd no instant,** whatever
the first `k` of them did. -/
theorem uncrowded_of_drop {k : Nat} (hk : k < maxCount32)
    (h : (c.starts.drop k).Pairwise fun s t => s.nanos < t.nanos) : c.Uncrowded := by
  have hnodup : (c.starts.drop k).Nodup := by
    refine h.imp fun {s t} hlt => ?_
    rintro rfl
    exact absurd hlt (Nat.lt_irrefl _)
  intro t
  have hone := List.nodup_iff_count_le_one.1 hnodup t
  have hfirst : (c.starts.take k).count t ≤ k :=
    le_trans List.count_le_length (List.length_take_le k c.starts)
  have hsplit : c.starts.count t = (c.starts.take k).count t + (c.starts.drop k).count t := by
    rw [← List.count_append, List.take_append_drop]
  omega

theorem Increasing.uncrowded (h : c.Increasing) : c.Uncrowded :=
  uncrowded_of_drop (k := 0) (by decide) h

variable [Failure ε] {o : RetryOptions} {draws : Draws} {delays : List Duration}
  {first now d : Instant}

/-- **The policy's number bounds the attempts of a run,** so they crowd no
instant. -/
theorem Follows.uncrowded (h : c.Follows o draws delays) (hp : o.policy.Waits)
    (hpos : 0 < o.policy.maximumAttempts) (hmax : o.policy.maximumAttempts ≤ maxCount32) :
    c.Uncrowded := by
  intro t
  refine le_trans List.count_le_length ?_
  rcases Nat.lt_or_ge 1 c.starts.length with hmore | hone
  · -- the start of the last attempt followed from a retry, which had attempts left
    have hflight := h.inFlight_le
    have hlen : (c.trials.take (c.starts.length - 1)).length = c.starts.length - 1 := by
      rw [List.length_take]
      omega
    have hne : c.trials.take (c.starts.length - 1) ≠ [] :=
      List.ne_nil_of_length_pos (by omega)
    have hfirst : (Standing.initial (o.begin c.first) : Standing ε α).invocation.attempt ≤
        maxCount32 := show 1 ≤ maxCount32 by decide
    have hleft : min (1 + (c.trials.take (c.starts.length - 1)).length - 1) maxCount32 <
        o.policy.maximumAttempts := Standing.lt_maximum_of_isOpen hp hfirst hne h.followed hpos
    omega
  · have hmany : 1 ≤ maxCount32 := by decide
    omega

end Chronicle

/-! ## Attempts that start one after the other -/

/-- Attempts take no pause away. -/
theorem Standing.pauses_grow [Failure ε] (p : RetryPolicy) (draws : Draws) (s : Standing ε α)
    (ts : List (Trial ε α)) : s.pauses <+: (s.afterAll p draws ts).pauses := by
  induction ts generalizing s with
  | nil => exact List.prefix_refl _
  | cons t ts ih =>
    rw [afterAll_cons]
    refine List.IsPrefix.trans ?_ (ih (s.after p draws t))
    rcases pauses_after p draws s t with hsame | ⟨delay, hmore⟩
    · exact hsame ▸ List.prefix_refl _
    · exact hmore ▸ List.prefix_append _ _

/-- A run that has begun has started an attempt. -/
theorem Run.Tracks.starts_ne_nil [Failure ε] {o : RetryOptions} {draws : Draws}
    {past : List RetryEvent} {r : Run τ ε} {c : Chronicle ε α} (h : r.Tracks o draws past c)
    (hbegun : r.phase ≠ .idle) : c.starts ≠ [] := by
  obtain ⟨-, -, hphase⟩ := h
  cases hp : r.phase with
  | idle => exact absurd hp hbegun
  | settled => simp only [hp] at hphase
  | backingOff timer i =>
    simp only [hp] at hphase
    exact hphase.1
  | attempting attempt i =>
    simp only [hp] at hphase
    exact List.ne_nil_of_length_pos (by omega)

namespace Chronicle

variable [Failure ε] {o : RetryOptions} {draws : Draws} {c c' : Chronicle ε α}
  {delays : List Duration} {first now d : Instant}

/-- **Between two attempts the first of them was paused after,** as the
rule for failures says of its number. -/
theorem Follows.exists_pause (h : c.Follows o draws delays) {k : Nat}
    (hk : k + 1 < c.starts.length) :
    ∃ (i : Invocation) (e : ε) (t : Trial ε α) (delay : Duration),
      i.attempt = min (k + 1) maxCount32 ∧ i.deadline = o.effective c.first ∧
      c.trials[k]? = some t ∧ (c.standing o draws).pauses[k]? = some (t.ended, delay) ∧
      afterFailure o.policy i e t.ended (draws i.attempt) = .retry delay := by
  have hended : k < c.trials.length := by
    have := h.inFlight_le
    omega
  have hlen : (c.trials.take k).length = k := by
    rw [List.length_take]
    omega
  let before : Standing ε α :=
    (Standing.initial (o.begin c.first)).afterAll o.policy draws (c.trials.take k)
  have hopen : (before.after o.policy draws c.trials[k]).IsOpen := by
    have hbetween : ((Standing.initial (o.begin c.first)).afterAll o.policy draws
        (c.trials.take (k + 1))).IsOpen :=
      Standing.isOpen_take_of_le h.followed (by omega : k + 1 ≤ c.starts.length - 1)
    rwa [List.take_add_one, List.getElem?_eq_getElem hended, Option.toList_some,
      Standing.afterAll_append] at hbetween
  obtain ⟨e, delay, -, hdecision, hafter⟩ := Standing.isOpen_after hopen
  have hbefore : before.IsOpen := Standing.isOpen_of_after hopen
  have hattempt := Standing.afterAll_attempt
    (show (Standing.initial (o.begin c.first) : Standing ε α).invocation.attempt ≤ maxCount32 from
      (by decide : 1 ≤ maxCount32)) hbefore
  have hmany : before.pauses.length = k := by
    have hends := congrArg List.length (Standing.pauses_of_isOpen hbefore)
    rw [List.length_map] at hends
    rw [hends, List.length_append, List.length_map, List.length_map, hlen]
    exact Nat.zero_add k
  -- the attempts up to this one have a pause each, and those after it take none away
  obtain ⟨rest, hrest⟩ := Standing.pauses_grow o.policy draws
    (before.after o.policy draws c.trials[k]) (c.trials.drop (k + 1))
  have hwhole : (before.after o.policy draws c.trials[k]).afterAll o.policy draws
      (c.trials.drop (k + 1)) = c.standing o draws := by
    rw [standing, ← Standing.afterAll_cons, ← Standing.afterAll_append, ← List.drop_eq_getElem_cons,
      List.take_append_drop]
  refine ⟨before.invocation, e, c.trials[k], delay, ?_, (Standing.afterAll_fixed _ _ _ _).2,
    List.getElem?_eq_getElem hended, ?_, hdecision⟩
  · rw [hattempt, hlen, Nat.add_comm]
    rfl
  · rw [← hwhole, ← hrest, hafter, List.append_assoc, List.singleton_append,
      List.getElem?_append_right (by omega), hmany, Nat.sub_self]
    rfl

/-- **Before a deadline each attempt starts later than the one before it,**
from the attempt on after which jitter leaves something of every delay. -/
theorem Follows.increasing (h : c.Follows o draws delays) (hwaited : c.Waited o draws)
    (htimely : c.Timely now) {k : Nat} (hsome : o.policy.LeavesSomeFrom draws k)
    (hk : k ≤ maxCount32) (hd : o.effective c.first = some d)
    (hlast : d.nanos ≤ Instant.lastFiring.nanos) :
    (c.starts.drop (k - 1)).Pairwise fun s t => s.nanos < t.nanos := by
  have hchain : (c.starts.drop (k - 1)).IsChain fun s t => s.nanos < t.nanos := by
    rw [List.isChain_iff_getElem]
    intro j hj
    rw [List.length_drop] at hj
    rw [List.getElem_drop, List.getElem_drop]
    obtain ⟨i, e, t, delay, hattempt, hi, ht, hq, hretry⟩ :=
      h.exists_pause (k := k - 1 + j) (by omega)
    have hforward := htimely.forward _ _ t (List.getElem?_eq_getElem (by omega)) ht
    have hfired := hwaited _ _ _ hq (List.getElem?_eq_getElem (by omega))
    have hbefore := lt_deadline_of_retry hretry (hi.trans hd)
    obtain ⟨base, hback, hjitter⟩ := nextBackoff_of_retry hretry
    have hpos := hsome i.attempt base delay (by omega)
      (Invocation.nextBackoff_pos (hi.trans hd) hback) (Invocation.nextBackoff_le hback) hjitter
    have hwait := Instant.lt_timer hpos (lt_of_lt_of_le hbefore hlast)
    exact lt_of_le_of_lt hforward (lt_of_lt_of_le hwait hfired)
  have htrans : IsTrans Instant fun s t => s.nanos < t.nanos := ⟨fun _ _ _ => Nat.lt_trans⟩
  exact List.isChain_iff_pairwise.1 hchain

/-- Nothing has been started by `now`, or something was at `first`. -/
def BeginsAt (first now : Instant) (c : Chronicle ε α) : Prop :=
  (c.starts = [] ∧ now = first) ∨ c.starts.head? = some first

omit [Failure ε] in
/-- What starts first stays the first. -/
theorem BeginsAt.grows {move : Move ε α} (h : c.BeginsAt first now)
    (hgrows : c.Grows now move c') : c'.BeginsAt first now := by
  obtain ⟨rest, hrest⟩ := hgrows.starts_prefix
  rcases h with ⟨hnil, rfl⟩ | hhead
  · cases hgrows with
    | stays | retried | ended => exact Or.inl ⟨hnil, rfl⟩
    | started | brokeDown => exact Or.inr (by simp [hnil])
  · right
    rw [← hrest, List.head?_append, hhead]
    rfl

/-- Attempts follow from one another in time, each after its timer, and the
first of them starts at `first`. -/
structure Paced (c : Chronicle ε α) (o : RetryOptions) (draws : Draws) (first : Instant) :
    Prop where
  follows : ∃ delays, c.Follows o draws delays
  waited : c.Waited o draws
  timely : ∃ last, c.Timely last ∧ c.BeginsAt first last

end Chronicle

namespace Run

variable [Failure ε] {w : Work σ τ ε α} {o : RetryOptions} {draws : Draws}
  {past : List RetryEvent} {first now later : Instant} {r : Run τ ε} {c : Chronicle ε α}

/-- At `now` the run goes on from attempts that are paced. -/
structure KeepsPace (o : RetryOptions) (draws : Draws) (first now : Instant)
    (past : List RetryEvent) (r : Run τ ε) (c : Chronicle ε α) : Prop where
  tracks : r.Tracks o draws past c
  rests : r.Rests o draws c
  timely : c.Timely now
  begins : c.BeginsAt first now

theorem KeepsPace.paced (h : r.KeepsPace o draws first now past c) : c.Paced o draws first :=
  ⟨⟨_, h.tracks.follows⟩, h.rests.waited, now, h.timely, h.begins⟩

theorem keepsPace_new (o : RetryOptions) (draws : Draws) (first : Instant) :
    (Run.new o : Run τ ε).KeepsPace o draws first first [] (Chronicle.empty : Chronicle ε α) where
  tracks := ⟨rfl, rfl, rfl, rfl, rfl⟩
  rests := ⟨fun _ _ _ hq => (by cases hq), fun _ _ hphase => by cases hphase⟩
  timely := Chronicle.timely_empty _
  begins := Or.inl ⟨rfl, rfl⟩

/-- Time passes for a run that has begun. -/
theorem KeepsPace.mono (h : r.KeepsPace o draws first now past c) (hbegun : r.phase ≠ .idle)
    (hle : now.nanos ≤ later.nanos) : r.KeepsPace o draws first later past c where
  tracks := h.tracks
  rests := h.rests
  timely := h.timely.mono hle
  begins := h.begins.imp_left fun hnone => absurd hnone.1 (h.tracks.starts_ne_nil hbegun)

/-- **One transition keeps the pace.** -/
theorem step_keepsPace {world : σ × Chronicle ε α}
    (h : r.KeepsPace o draws first now past world.2) :
    (r.step w.chronicled draws now world).Keeps
      (fun past r world => r.KeepsPace o draws first now past world.2)
      (fun _ world _ => world.2.Paced o draws first) past := by
  have hgrows : world.2.Grows now (r.step w.chronicled draws now world).result
      (r.step w.chronicled draws now world).world.2 := step_grows world
  have htimely := h.timely.grows h.tracks.follows.ended_le hgrows
  have hbegins := h.begins.grows hgrows
  exact ((step_follows h.tracks).and (step_rests h.tracks h.rests)).imp
    (fun _ _ hkept => ⟨hkept.1, hkept.2, htimely, hbegins⟩)
    (fun _ _ hended => ⟨⟨_, hended.1⟩, hended.2, now, htimely, hbegins⟩)

end Run

namespace Course

variable [Failure ε]

/-- **The policy's number keeps a course uncrowded.** -/
theorem follow_uncrowded (w : Work σ τ ε α) (draws : Draws)
    (cancelledFrom : Option Instant) (limit : Instant) {o : RetryOptions} (now : Instant)
    (world : σ) (hp : o.policy.Waits) (hpos : 0 < o.policy.maximumAttempts)
    (hmax : o.policy.maximumAttempts ≤ maxCount32) :
    ((Course.begin o now (world, Chronicle.empty)).follow w.chronicled draws cancelledFrom
      limit).world.2.Uncrowded := by
  obtain ⟨delays, hfollows⟩ := followFor_follows w draws cancelledFrom limit o now
    (limit.nanos - now.nanos + 1) world
  exact hfollows.uncrowded hp hpos hmax

/-- **The attempts of a course are paced,** whether it has come to its end
or not. -/
theorem follow_paced (w : Work σ τ ε α) (draws : Draws) (cancelledFrom : Option Instant)
    (limit : Instant) (o : RetryOptions) (first : Instant) (world : σ) :
    ((Course.begin o first (world, Chronicle.empty)).follow w.chronicled draws cancelledFrom
      limit).world.2.Paced o draws first := by
  have hleaves := followFor_leaves (w := w.chronicled)
    (J := fun now past r (world : σ × Chronicle ε α) => r.KeepsPace o draws first now past world.2)
    (E := fun _ world _ => world.2.Paced o draws first)
    (fun _ _ _ _ _ hbegun hle hkept => hkept.mono hbegun hle)
    (fun _ _ _ _ hkept => Run.step_keepsPace hkept)
    (fun _ _ _ _ hkept _ => hkept.paced) cancelledFrom limit (limit.nanos - first.nanos + 1) []
    (c := Course.begin o first (world, Chronicle.empty)) (Run.keepsPace_new o draws first)
  rcases hleaves with ⟨_, hkept⟩ | ⟨_, hpaced⟩
  · exact hkept.paced
  · exact hpaced

/-- **A deadline keeps a course uncrowded,** if from some attempt on jitter
leaves something of every delay. -/
theorem follow_uncrowded_of_deadline (w : Work σ τ ε α) {draws : Draws}
    (cancelledFrom : Option Instant) (limit : Instant) {o : RetryOptions} {first d : Instant}
    (world : σ) (hsome : o.policy.LeavesSome draws) (hd : o.effective first = some d)
    (hlast : d.nanos ≤ Instant.lastFiring.nanos) :
    ((Course.begin o first (world, Chronicle.empty)).follow w.chronicled draws cancelledFrom
      limit).world.2.Uncrowded := by
  obtain ⟨k, hk, hfrom⟩ := hsome
  obtain ⟨⟨_, hfollows⟩, hwaited, _, htimely, hbegins⟩ :=
    follow_paced w draws cancelledFrom limit o first world
  rcases hbegins with ⟨hnil, -⟩ | hhead
  · intro t
    rw [hnil]
    exact Nat.zero_le _
  · have hone : 0 < maxCount32 := by decide
    refine Chronicle.uncrowded_of_drop (k := k - 1) (by omega)
      (hfollows.increasing hwaited htimely hfrom hk ?_ hlast)
    rwa [Chronicle.first, hhead, Option.getD_some]

end Course

/-! ## Runs that never leave their instant -/

/-- At `now` every attempt fails with `e` as soon as it is started. -/
structure Work.FailsAt (w : Work σ τ ε α) (now : Instant) (e : ε) : Prop where
  starts : ∀ world, ∃ attempt world', w.start now world = (.ok attempt, world')
  fails : ∀ attempt world, (w.look now attempt world).1 = .finished (.error e)

section

variable [Failure ε] {w : Work σ τ ε α} {r : Run τ ε} {o : RetryOptions} {draws : Draws}
  {now d : Instant} {e : ε}

/-- **A failure before the deadline is retried at once,** if jitter takes
the delay away. -/
theorem afterFailure_of_takesAll {p : RetryPolicy} (hp : p.Waits)
    (hunlimited : p.maximumAttempts = 0) (htakes : p.TakesAll draws)
    (hretryable : classify p.doNotRetry e false = .retryable) {i : Invocation}
    (hi : i.deadline = some d) (hbefore : now.nanos < d.nanos) :
    afterFailure p i e now (draws i.attempt) = .retry .zero := by
  have hopen : ¬ i.Expired now := by
    rintro ⟨d', hd', hle⟩
    obtain rfl := Option.some.inj (hi.symm.trans hd')
    omega
  have hexpired : i.isExpired now = false := by
    rw [← Bool.not_eq_true, Invocation.isExpired_iff]
    exact hopen
  have hexhausted : i.isExhausted p = false := by
    rw [← Bool.not_eq_true, Invocation.isExhausted_iff]
    omega
  unfold afterFailure
  simp only [hexpired, hretryable, hexhausted, Bool.false_eq_true, if_false]
  cases hback : i.nextBackoff p now with
  | deadlineReached => exact absurd (Invocation.expired_of_deadlineReached hp hback) hopen
  | sleep delay => simp only [htakes i.attempt delay (Invocation.nextBackoff_le hback)]

/-- The next attempt of the run is due at `now`, before the deadline. -/
def Run.Restless (o : RetryOptions) (d now : Instant) (r : Run τ ε) : Prop :=
  r.options = o ∧
    match r.phase with
    | .idle => o.effective now = some d
    | .backingOff timer i => timer = now ∧ i.deadline = some d
    | .attempting _ _ | .settled => False

omit [Failure ε] in
/-- A restless run has no timer that is still to come. -/
theorem Run.Restless.earliestWithin_eq_none (h : r.Restless o d now) (limit : Instant) :
    earliestWithin now limit (r.timers w) = none := by
  obtain ⟨-, hphase⟩ := h
  cases hphased : r.phase with
  | idle => simp only [Run.timers, hphased, earliestWithin]
  | settled | attempting => simp only [hphased] at hphase
  | backingOff timer i =>
    simp only [hphased] at hphase
    obtain ⟨rfl, -⟩ := hphase
    simp only [Run.timers, hphased, earliestWithin, Nat.lt_irrefl, false_and, if_false]

variable (hp : o.policy.Waits) (hunlimited : o.policy.maximumAttempts = 0)
  (htakes : o.policy.TakesAll draws)
  (hretryable : classify o.policy.doNotRetry e false = .retryable) (hfails : w.FailsAt now e)
  (hbefore : now.nanos < d.nanos)

include hp hunlimited htakes hretryable hfails hbefore

/-- An attempt that is started fails, and the next one is due at once. -/
theorem Run.launch_restless {i : Invocation} (ho : r.options = o) (hi : i.deadline = some d)
    (world : σ) :
    let t := r.launch w now i world
    t.result = .onward ∧ (t.run.step w draws now t.world).result = .onward ∧
      (t.run.step w draws now t.world).run.Restless o d now := by
  subst ho
  obtain ⟨attempt, world', hstart⟩ := hfails.starts world
  have hfailed := hfails.fails attempt world'
  rcases hlook : w.look now attempt world' with ⟨progress, after⟩
  rw [hlook] at hfailed
  obtain rfl : progress = .finished (.error e) := hfailed
  have hretried := afterFailure_of_takesAll hp hunlimited htakes hretryable hi hbefore
  simp only [launch, hstart, step, hlook, afterFailedAttempt, hretried]
  exact ⟨trivial, trivial, rfl, rfl, hi⟩

/-- **Two transitions lead a restless run back to where it was.** -/
theorem Run.steps_restless (n : Nat) (h : r.Restless o d now) (world : σ) :
    (r.steps w draws now (2 * n) world).result = .pending ∧
      (r.steps w draws now (2 * n) world).run.Restless o d now := by
  induction n generalizing r world with
  | zero => exact ⟨rfl, h⟩
  | succ n ih =>
    obtain ⟨ho, hphase⟩ := h
    have hlaunches : ∃ i : Invocation, i.deadline = some d ∧
        r.step w draws now world = r.launch w now i world := by
      unfold step
      cases hphased : r.phase with
      | idle =>
        simp only [hphased] at hphase
        exact ⟨_, ho ▸ hphase, rfl⟩
      | settled | attempting => simp only [hphased] at hphase
      | backingOff timer i =>
        simp only [hphased] at hphase
        obtain ⟨rfl, hi⟩ := hphase
        exact ⟨i.advance, hi, if_pos (by simp [Instant.reached])⟩
    obtain ⟨i, hi, hstep⟩ := hlaunches
    obtain ⟨honward, hfailed, hrestless⟩ :=
      launch_restless hp hunlimited htakes hretryable hfails hbefore ho hi world
    have hrest := ih hrestless
    rw [show 2 * (n + 1) = 2 * n + 1 + 1 by omega]
    simp only [steps, hstep, honward, hfailed]
    exact hrest _

/-- **A run never leaves an instant at which every attempt fails at once**
and jitter takes every delay away: it has not come to its end, and its
deadline does not come either. -/
theorem Course.follow_restless (hd : o.effective now = some d) (limit : Instant) (world : σ) :
    ((Course.begin o now world : Course σ τ ε α).follow w draws none limit).ending = .pending := by
  have hbegin : (Run.new o : Run τ ε).Restless o d now := ⟨rfl, hd⟩
  obtain ⟨hpending, hrestless⟩ := Run.steps_restless hp hunlimited htakes hretryable hfails hbefore
    (Run.stepLimit / 2) hbegin world
  rw [show 2 * (Run.stepLimit / 2) = Run.stepLimit by decide] at hpending hrestless
  have hpoll : (Run.new o : Run τ ε).poll w draws now false world =
      (Run.new o).steps w draws now Run.stepLimit world := by
    unfold Run.poll
    rw [Bool.and_false, Bool.false_and, if_neg Bool.false_ne_true]
  have hpolled : (Course.begin o now world : Course σ τ ε α).pollNow w draws none =
      ⟨now, ((Run.new o).steps w draws now Run.stepLimit world).run,
        ((Run.new o).steps w draws now Run.stepLimit world).world,
        ((Run.new o).steps w draws now Run.stepLimit world).events, .pending⟩ := by
    rw [← hpending, ← hpoll]
    rfl
  have hnext := hrestless.earliestWithin_eq_none (w := w) limit
  have hfollow : (Course.begin o now world : Course σ τ ε α).follow w draws none limit =
      { (Course.begin o now world : Course σ τ ε α).pollNow w draws none with
        now := ⟨max now.nanos limit.nanos⟩ } :=
    followFor_waits (limit.nanos - now.nanos) (by rw [hpolled])
      (by rw [hpolled, Option.toList_none, List.append_nil]; exact hnext)
  rw [hfollow, hpolled]

end

end ResilientCalls
