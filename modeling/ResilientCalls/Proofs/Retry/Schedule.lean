import ResilientCalls.Proofs.Retry.Progress
import ResilientCalls.Rehearsal.Script
/-!
# Runs of planned attempts

A plan tells of each attempt, by its number, how long it takes and what it
comes to. On a clock that moves from timer to timer the plan and the policy
then fix the whole run: when each attempt starts, when it ends, and how the
run settles. `Unfolds` is this run without its states, a chain of attempts
with one link for each, and the run on a clock is shown to be it.
-/

namespace ResilientCalls

variable {σ τ ε α : Type}

/-! ## Plans -/

/-- When something that waits for a while from now goes on: when its timer
fires, and not before now. -/
def Instant.wakes (now : Instant) (d : Duration) : Instant :=
  ⟨max now.nanos (now.timer d).nanos⟩

namespace Instant

variable {now later : Instant} {d : Duration}

theorem le_wakes (now : Instant) (d : Duration) : now.nanos ≤ (now.wakes d).nanos :=
  Nat.le_max_left _ _

/-- What still waits when the timer has fired goes on at that instant. -/
theorem eq_wakes (hbegun : now.nanos ≤ later.nanos) (hnot : later.nanos ≤ (now.wakes d).nanos)
    (hfired : (now.timer d).reached later = true) : later = now.wakes d := by
  simp only [reached, decide_eq_true_eq] at hfired
  obtain ⟨t⟩ := later
  exact congrArg Instant.mk (le_antisymm hnot (Nat.max_le.2 ⟨hbegun, hfired⟩))

end Instant

/-- How attempts go, by their numbers, which count from one. -/
structure Plan (ε α : Type) where
  latency : Nat → Duration
  result : Nat → Except ε α

/-- The attempt in flight has a timer, and ends with a result when this
fires; looking at it counts no attempt. -/
structure Work.Lands (w : Work σ τ ε α) (calls : σ → Nat) (attempt : τ) (endsAt : Instant)
    (result : Except ε α) : Prop where
  timers_eq : w.timers attempt = [endsAt]
  look : ∀ now world, ∃ world', calls world' = calls world ∧
    w.look now attempt world =
      (if endsAt.reached now then .finished result else .waiting, world')

/-- **The work goes as planned:** each attempt is counted and lands as the
plan says for its number. -/
def Work.Performs (w : Work σ τ ε α) (plan : Plan ε α) (calls : σ → Nat) : Prop :=
  ∀ now world, ∃ attempt world', w.start now world = (.ok attempt, world') ∧
    calls world' = calls world + 1 ∧
    w.Lands calls attempt (now.timer (plan.latency (calls world'))) (plan.result (calls world'))

/-! ## Unfolding -/

section

variable [Failure ε]

/-- **The run of a plan** from attempt `n` on, which starts at `start`: when
its attempts start, and what it comes to. -/
inductive RetryPolicy.Unfolds (p : RetryPolicy) (draws : Draws) (plan : Plan ε α) :
    Nat → Invocation → Instant → List Instant → Except (RetryError ε) α → Prop
  /-- A value ends the run. -/
  | value {n : Nat} {i : Invocation} {start : Instant} {v : α} (h : plan.result n = .ok v) :
    Unfolds p draws plan n i start [start] (.ok v)
  /-- A failure ends the run if the policy says so where the attempt ends. -/
  | stops {n : Nat} {i : Invocation} {start : Instant} {e : ε} {reason : Stop}
    (h : plan.result n = .error e)
    (hstop : afterFailure p i e (start.wakes (plan.latency n)) (draws i.attempt) = .stop reason) :
    Unfolds p draws plan n i start [start]
      (.error (reason.toError e i.attempt (i.elapsed (start.wakes (plan.latency n)))))
  /-- Otherwise the next attempt starts when the delay is over. -/
  | retries {n : Nat} {i : Invocation} {start : Instant} {e : ε} {delay : Duration}
    {later : List Instant} {outcome : Except (RetryError ε) α} (h : plan.result n = .error e)
    (hretry : afterFailure p i e (start.wakes (plan.latency n)) (draws i.attempt) = .retry delay)
    (hrest : Unfolds p draws plan (n + 1) i.advance ((start.wakes (plan.latency n)).wakes delay)
      later outcome) :
    Unfolds p draws plan n i start (start :: later) outcome

namespace RetryPolicy.Unfolds

variable {p : RetryPolicy} {draws : Draws} {plan : Plan ε α} {n : Nat} {i : Invocation}
  {start : Instant} {starts : List Instant} {outcome : Except (RetryError ε) α}

/-- The first attempt starts at the beginning. -/
theorem exists_later (h : p.Unfolds draws plan n i start starts outcome) :
    ∃ later, starts = start :: later := by
  cases h <;> exact ⟨_, rfl⟩

/-- A value is the end. -/
theorem of_value {v : α} (h : p.Unfolds draws plan n i start starts outcome)
    (hvalue : plan.result n = .ok v) : starts = [start] ∧ outcome = .ok v := by
  cases h with
  | value hresult =>
    rw [hvalue] at hresult
    cases hresult
    exact ⟨rfl, rfl⟩
  | stops hresult | retries hresult =>
    rw [hvalue] at hresult
    cases hresult

/-- A failure that is retried is followed by the next attempt. -/
theorem of_retry {e : ε} {delay : Duration} (h : p.Unfolds draws plan n i start starts outcome)
    (hfails : plan.result n = .error e)
    (hretry : afterFailure p i e (start.wakes (plan.latency n)) (draws i.attempt) =
      .retry delay) : ∃ later, starts = start :: later ∧
      p.Unfolds draws plan (n + 1) i.advance ((start.wakes (plan.latency n)).wakes delay) later
        outcome := by
  cases h with
  | value hresult =>
    rw [hfails] at hresult
    cases hresult
  | stops hresult hstop =>
    rw [hfails] at hresult
    cases hresult
    rw [hretry] at hstop
    cases hstop
  | retries hresult hretry' hrest =>
    rw [hfails] at hresult
    cases hresult
    rw [hretry] at hretry'
    cases hretry'
    exact ⟨_, rfl, hrest⟩

/-- **An attempt that starts at the deadline or later is the last,** and
what it comes to is what the run comes to. -/
theorem last_of_deadline {d : Instant} (h : p.Unfolds draws plan n i start starts outcome)
    (hd : i.deadline = some d) (hlate : d.nanos ≤ start.nanos) :
    starts = [start] ∧ ∀ v, outcome = .ok v → plan.result n = .ok v := by
  cases h with
  | value hresult => exact ⟨rfl, fun v hv => by rw [hresult, Except.ok.inj hv]⟩
  | stops => exact ⟨rfl, fun v hv => by cases hv⟩
  | retries hresult hretry =>
    have hbefore := lt_deadline_of_retry hretry hd
    have hends := start.le_wakes (plan.latency n)
    omega

end RetryPolicy.Unfolds

namespace Run

/-- The run has unfolded so far: however it goes on from where it stands,
that is how it unfolds from `first` on. -/
def Unfolding (w : Work σ τ ε α) (o : RetryOptions) (draws : Draws) (plan : Plan ε α)
    (calls : σ → Nat) (first now : Instant) (r : Run τ ε) (world : σ × Chronicle ε α) : Prop :=
  r.options = o ∧
    match r.phase with
    | .idle => now = first ∧ calls world.1 = 0 ∧ world.2.starts = []
    | .attempting attempt i => ∃ (start : Instant) (earlier : List Instant),
        w.Lands calls attempt (start.timer (plan.latency (calls world.1)))
          (plan.result (calls world.1)) ∧
        start.nanos ≤ now.nanos ∧
        now.nanos ≤ (start.wakes (plan.latency (calls world.1))).nanos ∧
        world.2.starts = earlier ++ [start] ∧
        ∀ later outcome, o.policy.Unfolds draws plan (calls world.1) i start later outcome →
          o.policy.Unfolds draws plan 1 (o.begin first) first (earlier ++ later) outcome
    | .backingOff timer i => ∃ (ended : Instant) (delay : Duration), timer = ended.timer delay ∧
        ended.nanos ≤ now.nanos ∧ now.nanos ≤ (ended.wakes delay).nanos ∧
        ∀ later outcome, o.policy.Unfolds draws plan (calls world.1 + 1) i.advance
            (ended.wakes delay) later outcome →
          o.policy.Unfolds draws plan 1 (o.begin first) first (world.2.starts ++ later) outcome
    | .settled => False

/-- The run has settled, and that is how it unfolds from `first` on. -/
def Unfolded (o : RetryOptions) (draws : Draws) (plan : Plan ε α) (first : Instant)
    (c : Chronicle ε α) (ending : Ending ε α) : Prop :=
  ∃ outcome, ending = .settled outcome ∧
    o.policy.Unfolds draws plan 1 (o.begin first) first c.starts outcome

variable {w : Work σ τ ε α} {o : RetryOptions} {draws : Draws} {plan : Plan ε α} {calls : σ → Nat}
  {first now : Instant} {r : Run τ ε} {past : List RetryEvent}

/-- **One transition keeps a run unfolding,** or settles it as it
unfolds. -/
theorem step_unfolding (hw : w.Performs plan calls) (hcomputed : o.policy.Computes draws)
    (world : σ × Chronicle ε α) (h : r.Unfolding w o draws plan calls first now world) :
    (r.step w.chronicled draws now world).Keeps
      (fun _ r world => r.Unfolding w o draws plan calls first now world)
      (fun _ world ending => Unfolded o draws plan first world.2 ending) past := by
  obtain ⟨inner, c⟩ := world
  have hunfolding := h
  obtain ⟨rfl, hphase⟩ := h
  have hlaunch : ∀ i : Invocation,
      (∀ later outcome, r.options.policy.Unfolds draws plan (calls inner + 1) i now later outcome →
        r.options.policy.Unfolds draws plan 1 (r.options.begin first) first (c.starts ++ later)
          outcome) →
      (r.launch w.chronicled now i (inner, c)).Keeps
        (fun _ r' world => r'.Unfolding w r.options draws plan calls first now world)
        (fun _ world ending => Unfolded r.options draws plan first world.2 ending) past := by
    intro i hrest
    obtain ⟨attempt, inner', hstart, hcalls, hlands⟩ := hw now inner
    simp only [launch, Work.chronicled_start_ok hstart, Turn.Keeps]
    exact ⟨rfl, now, c.starts, hlands, le_rfl, Instant.le_wakes _ _, rfl, hcalls ▸ hrest⟩
  unfold step
  cases hp : r.phase with
  | idle =>
    simp only [hp] at hphase ⊢
    obtain ⟨rfl, hnone, hnil⟩ := hphase
    refine hlaunch _ ?_
    rw [hnone, hnil]
    exact fun _ _ hall => hall
  | backingOff timer i =>
    simp only [hp] at hphase ⊢
    obtain ⟨ended, delay, rfl, hbegun, hnot, hrest⟩ := hphase
    by_cases hfired : (ended.timer delay).reached now = true
    · rw [if_pos hfired]
      obtain rfl := Instant.eq_wakes hbegun hnot hfired
      exact hlaunch _ hrest
    · rw [if_neg hfired]
      exact hunfolding
  | attempting attempt i =>
    simp only [hp] at hphase ⊢
    obtain ⟨start, earlier, hlands, hbegun, hnot, hstarts, hrest⟩ := hphase
    obtain ⟨inner', hcalls, hlook⟩ := hlands.look now inner
    by_cases hlanded : (start.timer (plan.latency (calls inner))).reached now = true
    · obtain rfl := Instant.eq_wakes hbegun hnot hlanded
      rw [if_pos hlanded] at hlook
      simp only [Work.chronicled_look hlook]
      rcases hresult : plan.result (calls inner) with e | v
      · simp only [afterFailedAttempt]
        cases hdecision : afterFailure r.options.policy i e
          (start.wakes (plan.latency (calls inner))) (draws i.attempt) with
        | overflow reason =>
          exact absurd hdecision (afterFailure_ne_overflow_of (hcomputed i.attempt) reason)
        | stop reason =>
          refine ⟨_, rfl, ?_⟩
          rw [Chronicle.shown_finished, Chronicle.closed_starts, hstarts]
          exact hrest _ _ (.stops hresult hdecision)
        | retry delay =>
          refine ⟨rfl, _, delay, rfl, le_rfl, Instant.le_wakes _ _, ?_⟩
          intro later outcome hlater
          rw [Chronicle.shown_finished, Chronicle.closed_starts, hstarts, List.append_assoc]
          rw [hcalls] at hlater
          exact hrest _ _ (.retries hresult hdecision hlater)
      · refine ⟨_, rfl, ?_⟩
        rw [Chronicle.shown_finished, Chronicle.closed_starts, hstarts]
        exact hrest _ _ (.value hresult)
    · rw [if_neg hlanded] at hlook
      simp only [Work.chronicled_look hlook]
      refine ⟨rfl, ?_⟩
      simp only [hp, hcalls]
      exact ⟨start, earlier, hlands, hbegun, hnot, hstarts, hrest⟩
  | settled => simp only [hp] at hphase

/-- A run goes on unfolding while time passes, until its timer fires. -/
theorem Unfolding.until {world : σ × Chronicle ε α} {t next : Instant}
    (h : r.Unfolding w o draws plan calls first now world) (hmem : t ∈ r.timers w.chronicled)
    (hmoves : now.nanos ≤ next.nanos) (hnext : next.nanos ≤ t.nanos) :
    r.Unfolding w o draws plan calls first next world := by
  obtain ⟨ho, hphase⟩ := h
  refine ⟨ho, ?_⟩
  unfold timers at hmem
  cases hp : r.phase with
  | idle | settled => simp [hp] at hmem
  | backingOff timer i =>
    simp only [hp, List.mem_singleton] at hphase hmem ⊢
    obtain ⟨ended, delay, rfl, hbegun, -, hrest⟩ := hphase
    subst hmem
    exact ⟨ended, delay, rfl, le_trans hbegun hmoves, le_trans hnext (Nat.le_max_right _ _), hrest⟩
  | attempting attempt i =>
    simp only [hp, Work.chronicled] at hphase hmem ⊢
    obtain ⟨start, earlier, hlands, hbegun, -, hstarts, hrest⟩ := hphase
    rw [hlands.timers_eq, List.mem_singleton] at hmem
    subst hmem
    exact ⟨start, earlier, hlands, le_trans hbegun hmoves,
      le_trans hnext (Nat.le_max_right _ _), hstarts, hrest⟩

/-- A run that waits has a timer that fires later, while timers count. -/
theorem Unfolding.exists_timer {world : σ × Chronicle ε α}
    (h : r.Unfolding w o draws plan calls first now world)
    (hwaits : r.IsWaiting w.chronicled now world) : ∃ t ∈ r.timers w.chronicled,
      now.nanos < t.nanos ∧ t.nanos ≤ Instant.lastFiring.nanos := by
  obtain ⟨-, hphase⟩ := h
  rcases hwaits.cases with ⟨attempt, i, before, hp, hseen, htimers⟩ |
    ⟨timer, i, hp, hlater, htimers⟩ <;> simp only [hp] at hphase <;> rw [htimers]
  · obtain ⟨start, earlier, hlands, hbegun, -⟩ := hphase
    obtain ⟨inner, -, hlook⟩ := hlands.look now before
    have hbefore : now.nanos < (start.timer (plan.latency (calls world.1))).nanos := by
      by_contra hlanded
      rw [hlook, if_pos (by simpa [Instant.reached] using hlanded)] at hseen
      cases hseen
    have hlast := Instant.timer_le_lastFiring start (plan.latency (calls world.1))
    rw [hlands.timers_eq]
    exact ⟨_, List.mem_singleton_self _, hbefore, by omega⟩
  · obtain ⟨ended, delay, rfl, hbegun, -⟩ := hphase
    have hlast := Instant.timer_le_lastFiring ended delay
    exact ⟨_, List.mem_singleton_self _, hlater, by omega⟩

end Run

/-! ## Runs on a clock -/

/-- The chronicle of a run on a clock from its beginning. -/
def Course.chronicle (w : Work σ τ ε α) (draws : Draws) (cancelledFrom : Option Instant)
    (limit : Instant) (o : RetryOptions) (first : Instant) (world : σ) : Chronicle ε α :=
  ((Course.begin o first (world, Chronicle.empty)).follow w.chronicled draws cancelledFrom
    limit).world.2

/-- A run is the one that keeps a chronicle, without it. -/
theorem Course.follow_eq_forget (w : Work σ τ ε α) (draws : Draws)
    (cancelledFrom : Option Instant) (limit : Instant) (o : RetryOptions) (first : Instant)
    (world : σ) : (Course.begin o first world).follow w draws cancelledFrom limit =
      ((Course.begin o first (world, (Chronicle.empty : Chronicle ε α))).follow w.chronicled draws
        cancelledFrom limit).forget :=
  (follow_chronicled (Course.begin o first (world, Chronicle.empty))).symm

namespace Course

variable {w : Work σ τ ε α} {o : RetryOptions} {draws : Draws} {plan : Plan ε α} {calls : σ → Nat}
  {first limit : Instant} {world : σ} (hw : w.Performs plan calls)
  (hcomputed : o.policy.Computes draws) (hnone : calls world = 0)

include hw hcomputed hnone

/-- **A run of planned attempts that settles has unfolded.** -/
theorem unfolds_of_settled {outcome : Except (RetryError ε) α}
    (hsettled : ((Course.begin o first world).follow w draws none limit).ending =
      .settled outcome) :
    o.policy.Unfolds draws plan 1 (o.begin first) first
      (Course.chronicle w draws none limit o first world).starts outcome := by
  rw [follow_eq_forget] at hsettled
  have hending : ((Course.begin o first (world, Chronicle.empty)).follow w.chronicled draws none
    limit).ending = .settled outcome := hsettled
  have hends : ((Course.begin o first (world, Chronicle.empty)).follow w.chronicled draws none
      limit).ending ≠ .pending := by
    simp [hending]
  obtain ⟨_, _, hsame, hunfolds⟩ := follow_comes
    (J := fun now _ r world => r.Unfolding w o draws plan calls first now world)
    (E := fun _ world ending => Run.Unfolded o draws plan first world.2 ending)
    (fun now past r world h => Run.step_unfolding hw hcomputed world h)
    (fun _ hcancelled => by cases hcancelled)
    (fun now past r world next h hdue => by
      rw [Option.toList_none, List.append_nil] at hdue
      exact h.until (earliestWithin_mem hdue) (Nat.le_of_lt (earliestWithin_bounds hdue).1) le_rfl)
    ⟨rfl, rfl, hnone, rfl⟩ hends
  rw [hending] at hsame
  cases hsame
  exact hunfolds

/-- **A run of planned attempts settles,** if it is followed as far as timers
go and the attempts of each instant can be counted. -/
theorem exists_settled (hlimit : Instant.lastFiring.nanos ≤ limit.nanos)
    (hcrowd : (Course.chronicle w draws none limit o first world).Uncrowded) :
    ∃ outcome, ((Course.begin o first world).follow w draws none limit).ending =
      .settled outcome := by
  obtain ⟨_, outcome, hending, -⟩ := follow_settles
    (J := fun now _ r world => r.Unfolding w o draws plan calls first now world)
    (E := fun _ _ world ending => Run.Unfolded o draws plan first world.2 ending)
    (fun now past r world h => Run.step_unfolding hw hcomputed world h)
    (fun _ hcancelled => by cases hcancelled)
    (fun now past r world h hwaits => by
      obtain ⟨t, hmem, hlater, hlast⟩ := h.exists_timer hwaits
      exact ⟨t, hmem, hlater, le_trans hlast hlimit,
        fun next hmoves hnext => h.until hmem (Nat.le_of_lt hmoves) hnext⟩)
    ⟨rfl, rfl, hnone, rfl⟩ hcrowd
  exact ⟨outcome, by rw [follow_eq_forget]; exact hending⟩

end Course

end

/-! ## Scripts -/

namespace Rehearsal

/-- What an attempt that ends comes to. -/
def Finish.result? : Finish α → Option (Except ScriptedFailure α)
  | .returns value => some (.ok value)
  | .fails e => some (.error e)
  | .hangs | .breaks _ | .breaksAtStart _ => none

/-- An attempt that ends shows what it comes to. -/
theorem Finish.progress_of_result? {f : Finish α} {result : Except ScriptedFailure α}
    (h : f.result? = some result) : f.progress = .finished result := by
  cases f <;> cases h <;> rfl

/-- An attempt that ends is started with a timer for its end. -/
theorem Entry.launch_of_result? {e : Entry α} {result : Except ScriptedFailure α}
    (h : e.finish.result? = some result) (now : Instant) :
    e.launch now = .ok ⟨some (now.timer e.latency), e.finish⟩ := by
  obtain ⟨latency, finish⟩ := e
  cases finish <;> cases h <;> rfl

namespace Script

/-- All attempts end, with a value or a failure. -/
def Ends (s : Script α) : Prop :=
  s.entries ≠ [] ∧ ∀ e ∈ s.entries, e.finish.result?.isSome = true

/-- What a script plans; an attempt that does not end has no result, and
any failure stands for it. -/
def plan (s : Script α) : Plan ScriptedFailure α where
  latency n := (s.entry n).latency
  result n := (s.entry n).finish.result?.getD (.error default)

variable {s : Script α}

/-- Each attempt goes by one of the entries. -/
theorem entry_mem (h : s.entries ≠ []) (n : Nat) : s.entry n ∈ s.entries := by
  have hlast : s.entries.getLast?.getD ⟨.zero, .hangs⟩ ∈ s.entries := by
    rw [List.getLast?_eq_some_getLast h]
    exact List.getLast_mem h
  unfold entry
  cases hat : s.entries[n - 1]? with
  | none => exact hlast
  | some e => exact List.mem_of_getElem? hat

/-- An attempt in flight lands when its timer has fired. -/
theorem work_lands (s : Script α) {f : Finish α} {result : Except ScriptedFailure α}
    (h : f.result? = some result) (endsAt : Instant) :
    s.work.Lands Stage.calls ⟨some endsAt, f⟩ endsAt result where
  timers_eq := rfl
  look now stage := by
    refine ⟨stage, rfl, ?_⟩
    simp only [work, Option.any_some, Finish.progress_of_result? h]
    split <;> rfl

/-- **A script whose attempts all end goes as planned.** -/
theorem work_performs (h : s.Ends) : s.work.Performs s.plan Stage.calls := by
  intro now stage
  let e := s.entry (stage.enter now).calls
  obtain ⟨result, hresult⟩ := Option.isSome_iff_exists.1 (h.2 e (entry_mem h.1 _))
  refine ⟨⟨some (now.timer e.latency), e.finish⟩, stage.enter now, ?_, rfl, ?_⟩
  · exact Prod.ext (Entry.launch_of_result? hresult now) rfl
  · have hplan : s.plan.result (stage.enter now).calls = result := by
      change e.finish.result?.getD _ = result
      rw [hresult, Option.getD_some]
    exact s.work_lands (hplan ▸ hresult) _

end Script

end Rehearsal

end ResilientCalls
