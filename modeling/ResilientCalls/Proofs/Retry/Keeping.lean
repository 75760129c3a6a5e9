import ResilientCalls.Proofs.Retry.Bookkeeping
import ResilientCalls.Proofs.Retry.Isolation
/-!
# The failure that a cancelled run keeps

A run is cancelled by a token that it reads, by its handle, by a failure
that tells of a cancellation, or because its runtime shuts down. In the
first three cases the run itself settles and gives the failure of its last
attempt away. In the last one nobody polls the run any more: it still holds
that failure, but the handle answers in its place and knows only the
counter and the clock (`cancellation_keepsFailure`).
-/

namespace ResilientCalls

variable {σ τ ε α : Type} [Failure ε] {o : RetryOptions} {draws : Draws} {past : List RetryEvent}
  {c : Chronicle ε α}

namespace Chronicle

/-- The failure is that of the attempt that ended last; there is none if no
attempt has ended. -/
abbrev KeepsLast (c : Chronicle ε α) (kept : Option ε) : Prop :=
  c.KeepsFailureOf c.trials.length kept

omit [Failure ε] in
/-- Nothing is kept just when no attempt has ended. -/
theorem keepsLast_none : c.KeepsLast none ↔ c.trials = [] := by
  constructor
  · rintro (⟨hzero, -⟩ | ⟨t, e, -, -, -, hkept⟩)
    · exact List.eq_nil_of_length_eq_zero hzero
    · cases hkept
  · intro hnil
    exact Or.inl ⟨by rw [hnil, List.length_nil], rfl⟩

variable {last : Option ε} {n : Nat} {elapsed : Duration}

/-- A last attempt that cancels the run leaves its own failure. -/
theorem ClosedByAttempt.keepsLast {delays : List Duration} (h : c.ClosedByAttempt o draws delays
    (.settled (.error (.cancelled last n elapsed)))) : c.KeepsLast last := by
  obtain ⟨ts, ⟨result, now⟩, htrials, hopen⟩ := h.wasOpen
  have hending := h.ending_eq
  rw [standing, htrials, Standing.afterAll_append, Standing.afterAll_cons,
    Standing.afterAll_nil] at hending
  rcases result with message | e | value
  · rw [Standing.after_crash hopen] at hending
    cases hending
  · rw [Standing.after_failure o.policy draws hopen] at hending
    split at hending
    · cases hending
    · rename_i reason hdecision
      -- of the reasons to stop only a cancelled attempt reports a cancellation
      cases reason with
      | nonRetryable | attemptsExhausted | deadlineExceeded => cases hending
      | cancelled =>
        cases hending
        exact Or.inr ⟨⟨.ok (.error e), now⟩, e, by simp [htrials], by simp [htrials], rfl, rfl⟩
    · cases hending
  · rw [Standing.after_value hopen] at hending
    cases hending

/-- A token that cancels the run leaves the failure that was retried
last. -/
theorem ClosedByToken.keepsLast {now : Instant} (h : c.ClosedByToken o draws now
    (.settled (.error (.cancelled last n elapsed)))) : c.KeepsLast last := by
  obtain ⟨issued, -, hending⟩ := h.ending_eq
  cases hending
  exact keepsFailureOf_length h.isOpen

end Chronicle

/-- **A run that is going keeps the failure of its last attempt.** -/
theorem Run.Tracks.keepsLast {r : Run τ ε} (h : r.Tracks o draws past c) :
    c.KeepsLast r.lastError := by
  obtain ⟨hopen, hlast⟩ := h.stands
  rw [← hlast]
  exact Chronicle.keepsFailureOf_length hopen

/-- Any polls leave the failure of the last attempt with the run that goes
on, or with the error of the run that is cancelled. -/
theorem Run.pollEach_keepsLast (o : RetryOptions) (draws : Draws)
    (polls : List (Instant × Bool)) (w : Work σ τ ε α) (world : σ) :
    let t := (Run.new o).pollEach w.chronicled draws polls (world, Chronicle.empty)
    (t.result = .pending → t.world.2.KeepsLast t.run.lastError) ∧
    ∀ last n elapsed, t.result = .settled (.error (.cancelled last n elapsed)) →
      t.world.2.KeepsLast last := by
  intro t
  have hcloses : t.Leaves (TracksWorld o draws) (ClosesWorld o draws polls) [] :=
    Run.pollEach_closes o draws polls w world
  constructor
  · intro hpending
    simp only [Turn.Leaves, hpending] at hcloses
    exact hcloses.keepsLast
  · intro last n elapsed hcancelled
    simp only [Turn.Leaves, hcancelled] at hcloses
    rcases hcloses with hattempt | ⟨now, -, htoken⟩
    · exact hattempt.keepsLast
    · exact htoken.keepsLast

/-- A blocking run that is cancelled reports the failure of its last
attempt. -/
theorem Blocking.runWithin_keepsLast (limit : Nat) (w : BlockingWork σ ε α) (o : RetryOptions)
    (draws : Draws) (now : Instant) (world : σ) :
    let b := runWithin limit w.chronicled o draws now (world, Chronicle.empty)
    ∀ last n elapsed, b.ending = .settled (.error (.cancelled last n elapsed)) →
      b.world.2.KeepsLast last := by
  intro b last n elapsed hcancelled
  have hcloses : Closes o draws w [] b := runWithin_closes limit w o draws now world
  unfold Closes at hcloses
  rw [hcancelled] at hcloses
  rcases hcloses with hpending | hattempt | ⟨-, htoken⟩ | hcrash
  · cases hpending
  · exact hattempt.keepsLast
  · exact htoken.keepsLast
  · cases hcrash

omit [Failure ε] in
/-- What awaiting a handle gives is how its run has ended, and it stays so
when the runtime shuts down. -/
theorem Handle.shutDown_of_awaited {h : Handle σ τ ε α} {ending : Ending ε α}
    (hawaited : h.awaited? = some ending) (now : Instant) :
    h.course.ending = ending ∧ h.shutDown now = ending := by
  unfold awaited? Ending.final? at hawaited
  unfold shutDown
  cases hending : h.course.ending with
  | pending => simp [hending] at hawaited
  | settled outcome | crashed message => simpa [hending] using hawaited

/-- **Cancelled runs keep the last failure, unless the runtime shuts down.**
Whatever the work, the draws, the polls and the tokens, seen with the
chronicle, which changes no run: a polled run, a blocking run and a spawned
run among others that end as cancelled report the failure of the attempt
that ended last. So does a spawned run that has ended when its runtime
shuts down. One that is still going then keeps that failure too, but the
handle reports none, which is right just when no attempt has ended. -/
theorem cancellation_keepsFailure (o : RetryOptions) (draws : Draws) :
    (∀ (w : Work σ τ ε α) (polls : List (Instant × Bool)) (world : σ) (last n elapsed),
      let t := (Run.new o).pollEach w.chronicled draws polls (world, .empty)
      t.result = .settled (.error (.cancelled last n elapsed)) → t.world.2.KeepsLast last) ∧
    (∀ (w : BlockingWork σ ε α) (limit : Nat) (now : Instant) (world : σ) (last n elapsed),
      let b := Blocking.runWithin limit w.chronicled o draws now (world, .empty)
      b.ending = .settled (.error (.cancelled last n elapsed)) → b.world.2.KeepsLast last) ∧
    ∀ (begins : Instant) (earlier later : List (FamilyAction (σ × Chronicle ε α) τ ε α))
      (w : Work σ τ ε α) (world : σ),
      let f := (Family.new o begins).afterAll earlier
      ∃ m, ((f.act (.spawn w.chronicled draws (world, .empty))).afterAll
          later).members[f.members.length]? = some m ∧
        let c := m.handle.course.world.2
        (∀ last n elapsed,
          m.handle.awaited? = some (.settled (.error (.cancelled last n elapsed))) →
          c.KeepsLast last) ∧
        (∀ ending now, m.handle.awaited? = some ending → m.handle.shutDown now = ending) ∧
        (m.handle.awaited? = none → c.KeepsLast m.handle.course.run.lastError ∧
          (c.KeepsLast none ↔ c.trials = []) ∧
          ∀ now, m.handle.shutDown now = .settled (.error (.cancelled none m.handle.attempts
            (now.since m.handle.spawnedAt)))) := by
  refine ⟨?_, ?_, ?_⟩
  · intro w polls world last n elapsed t
    exact (Run.pollEach_keepsLast o draws polls w world).2 last n elapsed
  · intro w limit now world last n elapsed b
    exact Blocking.runWithin_keepsLast limit w o draws now world last n elapsed
  · intro begins earlier later w world f
    obtain ⟨m, hm, hending, hrun, hworld⟩ :=
      f.spawned_afterAll w.chronicled draws (world, Chronicle.empty) later
    obtain ⟨hgoing, hcancelled⟩ := Run.pollEach_keepsLast f.options.withToken draws
      (pollsAt f.options f.members.length f.now (f.callerCancelled && f.options.hasToken) later)
      w world
    rw [← hending, ← hworld, ← hrun] at hgoing
    rw [← hending, ← hworld] at hcancelled
    refine ⟨m, hm, ?_, ?_, ?_⟩
    · intro last n elapsed hawaited
      exact hcancelled last n elapsed (Handle.shutDown_of_awaited hawaited .start).1
    · intro ending now hawaited
      exact (Handle.shutDown_of_awaited hawaited now).2
    · intro hawaited
      have hpending := Handle.awaited?_eq_none.1 hawaited
      refine ⟨hgoing hpending, Chronicle.keepsLast_none, ?_⟩
      intro now
      rw [Handle.shutDown, hpending]

/-- Work that fails at once, for a blocking run that is cancelled after a
twentieth of a second. -/
def unavailableCancelled : BlockingWork Unit String Nat :=
  { unavailableBlocking with cancelledFrom := fun _ => some ⟨50000000⟩ }

/-- Runs that are cancelled in their first pause keep its failure, and so
does one whose runtime shuts down then; its handle does not. -/
theorem cancellation_keepsFailure_twoAttempts :
    let o := twoAttempts.withToken
    let spawn : FamilyAction (Unit × Chronicle String Nat) Unit String Nat :=
      .spawn unavailable.chronicled .still ((), .empty)
    let t := (Run.new o).pollEach unavailable.chronicled .still
      [(⟨0⟩, false), (⟨50000000⟩, true)] ((), .empty)
    let b := Blocking.runWithin 2 unavailableCancelled.chronicled o .still ⟨0⟩ ((), .empty)
    (t.result = .settled (.error (.cancelled (some "UNAVAILABLE") 1 ⟨50000000⟩)) ∧
      t.world.2.KeepsLast (some "UNAVAILABLE")) ∧
    (b.ending = .settled (.error (.cancelled (some "UNAVAILABLE") 1 ⟨50000000⟩)) ∧
      b.world.2.KeepsLast (some "UNAVAILABLE")) ∧
    ∃ m, (((Family.new o ⟨0⟩).act spawn).afterAll [.poll 0]).members[0]? = some m ∧
      m.handle.awaited? = none ∧ m.handle.course.world.2.KeepsLast m.handle.course.run.lastError ∧
      m.handle.shutDown ⟨50000000⟩ = .settled (.error (.cancelled none 1 ⟨50000000⟩)) := by
  dsimp only
  obtain ⟨hpolled, hblocking, hspawned⟩ := cancellation_keepsFailure (σ := Unit) (τ := Unit)
    (ε := String) (α := Nat) twoAttempts.withToken .still
  refine ⟨⟨?polled, hpolled unavailable _ () _ _ _ ?polled⟩,
    ⟨?blocking, hblocking unavailableCancelled 2 ⟨0⟩ () _ _ _ ?blocking⟩, ?_⟩
  case polled => decide +kernel
  case blocking => decide +kernel
  obtain ⟨m, hm, -, -, hgoing⟩ := hspawned ⟨0⟩ [] [.poll 0] unavailable ()
  have hstate : ((((Family.new twoAttempts.withToken ⟨0⟩).act (.spawn unavailable.chronicled .still
      ((), Chronicle.empty))).afterAll [.poll 0]).members[0]?).map
        (fun m => (m.handle.awaited?, m.handle.attempts, m.handle.spawnedAt)) =
      some (none, 1, ⟨0⟩) := by decide +kernel
  obtain ⟨m', hm', hfields⟩ := Option.map_eq_some_iff.1 hstate
  obtain rfl := Option.some.inj (hm'.symm.trans hm)
  obtain ⟨hawaited, hrest⟩ := Prod.mk.inj hfields
  obtain ⟨hattempts, hspawnedAt⟩ := Prod.mk.inj hrest
  obtain ⟨hkeeps, -, hshutDown⟩ := hgoing hawaited
  refine ⟨m', hm', hawaited, hkeeps, ?_⟩
  rw [hshutDown, hattempts, hspawnedAt]
  rfl

/-- **A shutdown loses the failure.** The first attempt has failed and the
run is in its pause when its runtime shuts down; the handle reports a
cancellation without a failure. -/
theorem shutDown_losesFailure :
    let f := (Family.new twoAttempts ⟨0⟩).afterAll
      [.spawn unavailable.chronicled .still ((), .empty), .poll 0]
    ∃ m : Member (Unit × Chronicle String Nat) Unit String Nat, f.members[0]? = some m ∧
      m.handle.shutDown ⟨50000000⟩ = .settled (.error (.cancelled none 1 ⟨50000000⟩)) ∧
      m.handle.course.world.2.lastFailure = some "UNAVAILABLE" ∧
      ¬ m.handle.course.world.2.KeepsLast none := by
  intro f
  have hstate : (f.members[0]?).map
      (fun m => (m.handle.shutDown ⟨50000000⟩, m.handle.course.world.2.lastFailure)) =
        some (.settled (.error (.cancelled none 1 ⟨50000000⟩)), some "UNAVAILABLE") := by
    decide +kernel
  obtain ⟨m, hm, hpair⟩ := Option.map_eq_some_iff.1 hstate
  obtain ⟨hshutDown, hlast⟩ := Prod.mk.inj hpair
  refine ⟨m, hm, hshutDown, hlast, ?_⟩
  rw [Chronicle.keepsLast_none]
  intro hnil
  simp [Chronicle.lastFailure, hnil] at hlast

end ResilientCalls
