import ResilientCalls.Proofs.Retry.Agreement
/-!
# Chronicles in time

What holds of the chronicle of a run at every moment, before its end as
well as after it. `Follows` says that each attempt was started from an
open standing, and which delays were asked for; it needs nothing of the
clock. `Timely` says that attempts end no earlier than they start, which
needs a clock that never goes back: polls in order, and calls that take no
time back. Both are kept by transitions and by rounds of the blocking
loop, and a transition does little to a chronicle: `Grows` lists it.
-/

namespace ResilientCalls

variable {σ τ ε α : Type}

/-! ## What a transition does to a chronicle -/

/-- A chronicle after a transition at `now`, by what the transition gives:
it goes on after an attempt has been started or has failed, and it ends
with the chronicle as it is, with the attempt in flight ended, or with an
attempt that broke down on the way. -/
inductive Chronicle.Grows (now : Instant) (c : Chronicle ε α) :
    Move ε α → Chronicle ε α → Prop
  | stays (ending : Ending ε α) : Grows now c (.ends ending) c
  | started : Grows now c .onward (c.started now)
  | retried (e : ε) : Grows now c .onward (c.closed now (.ok (.error e)))
  | ended (ending : Ending ε α) (result : Except String (Except ε α)) :
      Grows now c (.ends ending) (c.closed now result)
  | brokeDown (message : String) :
      Grows now c (.ends (.crashed message)) ((c.started now).closed now (.error message))

namespace Run

variable {w : Work σ τ ε α} {draws : Draws} {now : Instant} {r : Run τ ε}

/-- A launch goes on with an attempt in flight, or breaks the run down. -/
theorem launch_cases (w : Work σ τ ε α) (now : Instant) (r : Run τ ε) (i : Invocation)
    (world : σ) :
    ((∃ attempt, (r.launch w now i world).run.phase = .attempting attempt i) ∧
        (r.launch w now i world).result = .onward) ∨
      ((r.launch w now i world).run.phase = .settled ∧
        ∃ message, (r.launch w now i world).result = .ends (.crashed message)) := by
  rcases hstart : w.start now world with ⟨message | attempt, world'⟩ <;> simp [launch, hstart]

theorem launch_grows (i : Invocation) (world : σ × Chronicle ε α) :
    world.2.Grows now (r.launch w.chronicled now i world).result
      (r.launch w.chronicled now i world).world.2 := by
  obtain ⟨inner, c⟩ := world
  rcases h : w.start now inner with ⟨message | attempt, inner'⟩
  · simp only [launch, Work.chronicled_start_error h]
    exact .brokeDown message
  · simp only [launch, Work.chronicled_start_ok h]
    exact .started

variable [Failure ε]

/-- **A transition does to the chronicle what `Grows` lists.** -/
theorem step_grows (world : σ × Chronicle ε α) :
    world.2.Grows now (r.step w.chronicled draws now world).result
      (r.step w.chronicled draws now world).world.2 := by
  obtain ⟨inner, c⟩ := world
  unfold step
  cases r.phase with
  | idle => exact launch_grows _ _
  | attempting attempt i =>
    rcases h : w.look now attempt inner with ⟨_ | ⟨e | v⟩ | m, inner'⟩ <;>
      simp only [Work.chronicled_look h]
    · exact .stays .pending
    · unfold afterFailedAttempt
      cases afterFailure r.options.policy i e now (draws i.attempt) with
      | retry delay => exact .retried e
      | stop reason | overflow reason => exact .ended _ _
    · exact .ended _ _
    · exact .ended _ _
  | backingOff timer i =>
    by_cases h : timer.reached now = true
    · simp only [if_pos h]
      exact launch_grows _ (inner, c)
    · simp only [if_neg h]
      exact .stays .pending
  | settled => exact .stays _

end Run

/-! ## Polls in order -/

/-- Polls by a clock that never goes back. -/
def Run.InOrder (polls : List (Instant × Bool)) : Prop :=
  polls.Pairwise fun p q => p.1.nanos ≤ q.1.nanos

section Lifting

variable {I I' : List RetryEvent → Run τ ε → σ → Prop}
  {E E' : List RetryEvent → σ → Ending ε α → Prop}

/-- A transition that keeps more keeps less. -/
theorem Turn.Keeps.imp {past : List RetryEvent} {t : Turn σ τ ε α (Move ε α)}
    (h : t.Keeps I E past) (hI : ∀ past r, I past r t.world → I' past r t.world)
    (hE : ∀ past ending, E past t.world ending → E' past t.world ending) :
    t.Keeps I' E' past := by
  unfold Turn.Keeps at h ⊢
  rcases hresult : t.result with _ | _ | outcome | message <;> simp only [hresult] at h ⊢
  · exact hI _ _ h
  · exact hI _ _ h
  · exact hE _ _ h
  · exact hE _ _ h

/-- What transitions keep apart they keep together. -/
theorem Turn.Keeps.and {past : List RetryEvent} {t : Turn σ τ ε α (Move ε α)}
    (h : t.Keeps I E past) (h' : t.Keeps I' E' past) :
    t.Keeps (fun past r world => I past r world ∧ I' past r world)
      (fun past world ending => E past world ending ∧ E' past world ending) past := by
  unfold Turn.Keeps at h h' ⊢
  rcases hresult : t.result with _ | _ | outcome | message <;>
    simp only [hresult] at h h' ⊢ <;> exact ⟨h, h'⟩

variable [Failure ε] {w : Work σ τ ε α} {draws : Draws}

/-- **What transitions keep while time passes, polls in order leave.** The
invariant may speak of the time; it holds at some instant in the end. -/
theorem Run.pollEach_leaves_inOrder {J : Instant → List RetryEvent → Run τ ε → σ → Prop}
    {polls : List (Instant × Bool)} (horder : Run.InOrder polls)
    (hmono : ∀ now later past r world, now.nanos ≤ later.nanos → J now past r world →
      J later past r world)
    (hstep : ∀ now past r world, J now past r world →
      (r.step w draws now world).Keeps (J now) E past)
    (hcancel : ∀ now past r world, J now past r world → r.options.hasToken = true →
      (r.cancel now world : Turn σ τ ε α _).Leaves (J now) E past)
    (since : Instant) (hsince : ∀ q ∈ polls, since.nanos ≤ q.1.nanos)
    {past : List RetryEvent} {r : Run τ ε} {world : σ} (h : J since past r world) :
    (r.pollEach w draws polls world).Leaves (fun past r world => ∃ now, J now past r world) E
      past := by
  induction polls generalizing past r world since with
  | nil => exact ⟨since, by simpa [Run.pollEach] using h⟩
  | cons q polls ih =>
    obtain ⟨now, cancelled⟩ := q
    obtain ⟨hlater, horder⟩ := List.pairwise_cons.1 horder
    have hnow : J now past r world := hmono _ _ _ _ _ (hsince _ List.mem_cons_self) h
    have hpoll : (r.poll w draws now cancelled world).Leaves (J now) E past :=
      Run.poll_leaves (hstep now) (fun _ => hcancel now) hnow
    unfold Run.pollEach
    rcases hresult : (r.poll w draws now cancelled world).result with _ | outcome | message <;>
      simp only [Turn.Leaves, hresult] at hpoll ⊢
    · have hrest := ih horder now hlater hpoll
      simpa only [Turn.Leaves, List.append_assoc] using hrest
    all_goals exact hpoll

end Lifting

/-- What the growth of a chronicle keeps, a transition keeps. -/
theorem Run.step_keeps_grown [Failure ε] {w : Work σ τ ε α} {draws : Draws} {now : Instant}
    {r : Run τ ε} {world : σ × Chronicle ε α} {past : List RetryEvent}
    {P : Chronicle ε α → Prop} (hgrows : ∀ move c', world.2.Grows now move c' → P c') :
    (r.step w.chronicled draws now world).Keeps (fun _ _ world => P world.2)
      (fun _ world _ => P world.2) past := by
  have hgrown : P (r.step w.chronicled draws now world).world.2 :=
    hgrows _ _ (Run.step_grows world)
  unfold Turn.Keeps
  split <;> exact hgrown

/-! ## Attempts in time -/

/-- At `now`: nothing was started later, and no attempt ended before its
start. -/
structure Chronicle.Timely (now : Instant) (c : Chronicle ε α) : Prop where
  past : ∀ s ∈ c.starts, s.nanos ≤ now.nanos
  forward : ∀ (k : Nat) (s : Instant) (t : Trial ε α), c.starts[k]? = some s →
    c.trials[k]? = some t → s.nanos ≤ t.ended.nanos

namespace Chronicle

variable {now later : Instant} {c c' : Chronicle ε α}

theorem timely_empty (now : Instant) : (empty : Chronicle ε α).Timely now where
  past _ hs := absurd hs List.not_mem_nil
  forward _ _ _ hs := absurd hs (by simp [empty])

/-- A timely chronicle stays so while time passes. -/
theorem Timely.mono (h : c.Timely now) (hle : now.nanos ≤ later.nanos) : c.Timely later :=
  ⟨fun s hs => le_trans (h.past s hs) hle, h.forward⟩

/-- A start now has no end yet. -/
theorem Timely.started (h : c.Timely now) (hcount : c.trials.length ≤ c.starts.length) :
    (c.started now).Timely now where
  past s hs := by
    rcases List.mem_append.1 hs with hold | hnew
    · exact h.past s hold
    · rw [List.mem_singleton.1 hnew]
  forward k s t hs ht := by
    have hk : k < c.starts.length :=
      lt_of_lt_of_le (List.getElem?_eq_some_iff.1 ht).1 hcount
    rw [started_starts, List.getElem?_append_left hk] at hs
    exact h.forward k s t hs ht

/-- An end now comes after all starts. -/
theorem Timely.closed (h : c.Timely now) (result : Except String (Except ε α)) :
    (c.closed now result).Timely now where
  past := h.past
  forward k s t hs ht := by
    rw [closed_trials, List.getElem?_append] at ht
    split at ht
    · exact h.forward k s t hs ht
    · obtain rfl : (⟨result, now⟩ : Trial ε α) = t := by
        rw [List.getElem?_singleton] at ht
        split at ht
        · exact Option.some.inj ht
        · cases ht
      exact h.past s (List.mem_of_getElem? hs)

/-- What has been started stays started. -/
theorem Grows.starts_prefix {move : Move ε α} (h : c.Grows now move c') :
    c.starts <+: c'.starts := by
  cases h with
  | stays | retried | ended => exact List.prefix_refl _
  | started | brokeDown => exact List.prefix_append _ _

/-- A transition at `now` keeps a chronicle timely. -/
theorem Timely.grows {move : Move ε α} (h : c.Timely now)
    (hcount : c.trials.length ≤ c.starts.length) (hgrows : c.Grows now move c') :
    c'.Timely now := by
  cases hgrows with
  | stays ending => exact h
  | started => exact h.started hcount
  | retried e => exact h.closed _
  | ended ending result => exact h.closed result
  | brokeDown message => exact (h.started hcount).closed _

end Chronicle

/-! ## Attempts that follow from those before -/

variable [Failure ε] {o : RetryOptions} {draws : Draws} {past : List RetryEvent}
  {c : Chronicle ε α}

/-- At most one attempt is in flight, the last start followed from an open
standing, and `delays` are those asked for. -/
structure Chronicle.Follows (o : RetryOptions) (draws : Draws) (c : Chronicle ε α)
    (delays : List Duration) : Prop where
  ended_le : c.trials.length ≤ c.starts.length
  inFlight_le : c.starts.length ≤ c.trials.length + 1
  followed : ((Standing.initial (o.begin c.first)).afterAll o.policy draws
    (c.trials.take (c.starts.length - 1))).IsOpen
  delays_eq : (c.standing o draws).delays = delays

namespace Standing

variable {p : RetryPolicy} {s : Standing ε α} {ts : List (Trial ε α)}

/-- A run that is going was going after fewer of its attempts. -/
theorem isOpen_take_of_le {m n : Nat} (h : (s.afterAll p draws (ts.take n)).IsOpen)
    (hle : m ≤ n) : (s.afterAll p draws (ts.take m)).IsOpen := by
  rw [← List.take_append_drop m (ts.take n), afterAll_append] at h
  have hopen := isOpen_of_afterAll h
  rwa [List.take_take, Nat.min_eq_left hle] at hopen

end Standing

namespace Chronicle

/-- An open standing is followed by a start, or will be. -/
theorem Follows.of_isOpen (hended : c.trials.length ≤ c.starts.length)
    (hflight : c.starts.length ≤ c.trials.length + 1) (hopen : (c.standing o draws).IsOpen) :
    c.Follows o draws (c.standing o draws).delays := by
  refine ⟨hended, hflight, ?_, rfl⟩
  rw [standing, ← List.take_length (l := c.trials)] at hopen
  exact Standing.isOpen_take_of_le hopen (by omega)

/-- An attempt that closes a run was started from an open standing. -/
theorem ClosedByAttempt.follows {delays : List Duration} {ending : Ending ε α}
    (h : c.ClosedByAttempt o draws delays ending) : c.Follows o draws delays := by
  obtain ⟨earlier, t, htrials, hopen⟩ := h.wasOpen
  have hcount := h.complete
  refine ⟨by omega, by omega, ?_, h.delays_eq⟩
  rwa [h.complete, htrials, List.length_append, List.length_singleton, Nat.add_sub_cancel,
    List.take_left]

end Chronicle

/-- The start of the next attempt decides nothing. -/
theorem Standing.Is.unstarted {i : Invocation} {last : Option ε} {now : Instant}
    (his : ((c.started now).standing o draws).Is i last past)
    (hcount : c.starts.length = c.trials.length) :
    (c.standing o draws).IsOpen ∧ (c.standing o draws).delays = RetryEvent.delays past := by
  rcases eq_or_ne c.starts [] with hnil | hne
  · have htrials : c.trials = [] := List.eq_nil_of_length_eq_zero (by simp [← hcount, hnil])
    have hnone := his.delays_eq
    simp only [Chronicle.standing, Chronicle.started_trials, htrials] at hnone ⊢
    exact ⟨rfl, hnone⟩
  · rw [← Chronicle.standing_started hne now]
    exact ⟨his.isOpen, his.delays_eq⟩

namespace Run

variable {w : Work σ τ ε α} {r : Run τ ε} {now : Instant}

/-- The chronicle of a run that is still going. -/
theorem Tracks.follows (h : r.Tracks o draws past c) :
    c.Follows o draws (RetryEvent.delays past) := by
  obtain ⟨-, -, hphase⟩ := h
  cases hp : r.phase with
  | idle =>
    simp only [hp] at hphase
    obtain ⟨rfl, -, hdelays⟩ := hphase
    rw [hdelays]
    exact .of_isOpen le_rfl (Nat.zero_le _) rfl
  | attempting attempt i =>
    simp only [hp] at hphase
    obtain ⟨hcount, his⟩ := hphase
    rw [← his.delays_eq]
    exact .of_isOpen (by omega) (by omega) his.isOpen
  | backingOff timer i =>
    simp only [hp] at hphase
    obtain ⟨-, hcount, his⟩ := hphase
    rw [← his.delays_eq]
    exact .of_isOpen (by omega) (by omega) his.isOpen
  | settled => simp only [hp] at hphase

/-- One transition leaves a chronicle whose attempts follow. -/
theorem step_follows {world : σ × Chronicle ε α} (h : r.Tracks o draws past world.2) :
    (r.step w.chronicled draws now world).Keeps (TracksWorld o draws)
      (fun past world _ => world.2.Follows o draws (RetryEvent.delays past)) past := by
  -- no poll is listed, so nothing but an attempt can have closed the run
  have hkeeps : (r.step w.chronicled draws now world).Keeps (TracksWorld o draws)
      (ClosesWorld o draws []) past := step_keeps h
  refine hkeeps.imp (fun _ _ => id) ?_
  rintro past ending (hattempt | ⟨now, hmem, -⟩)
  · exact hattempt.follows
  · exact absurd hmem List.not_mem_nil

/-- Cancelling a run leaves its chronicle, and asks for no delay. -/
theorem cancel_follows {world : σ × Chronicle ε α} (h : r.Tracks o draws past world.2) :
    (r.cancel now world : Turn _ τ ε α _).Leaves (TracksWorld o draws)
      (fun past world _ => world.2.Follows o draws (RetryEvent.delays past)) past := by
  have hfollows := h.follows
  simpa [Turn.Leaves, cancel, RetryEvent.delays] using hfollows

/-- **The attempts of a run that is polled in order** follow from one
another and are timely, whether the run has ended or not. -/
theorem chronicle_inOrder {polls : List (Instant × Bool)} (horder : InOrder polls)
    (w : Work σ τ ε α) (o : RetryOptions) (draws : Draws) (world : σ) :
    (chronicle w draws polls o world).Follows o draws
        (RetryEvent.delays ((Run.new o).pollEach w draws polls world).events) ∧
      ∃ now, (chronicle w draws polls o world).Timely now := by
  have hleaves : ((Run.new o).pollEach w.chronicled draws polls (world, Chronicle.empty)).Leaves
      (fun past r world => ∃ now, r.Tracks o draws past world.2 ∧ world.2.Timely now)
      (fun past world _ => world.2.Follows o draws (RetryEvent.delays past) ∧
        ∃ now, world.2.Timely now) [] := by
    refine pollEach_leaves_inOrder horder ?_ ?_ ?_ .start (fun _ _ => Nat.zero_le _)
      ⟨⟨rfl, rfl, rfl, rfl, rfl⟩, Chronicle.timely_empty _⟩
    · rintro now later past r world hle ⟨htracks, htimely⟩
      exact ⟨htracks, htimely.mono hle⟩
    · rintro now past r world ⟨htracks, htimely⟩
      have hlater : (r.step w.chronicled draws now world).world.2.Timely now :=
        htimely.grows htracks.follows.ended_le (step_grows world)
      exact (step_follows htracks).imp (fun _ _ hnext => ⟨hnext, hlater⟩)
        (fun _ _ hfollows => ⟨hfollows, now, hlater⟩)
    · rintro now past r world ⟨htracks, htimely⟩ -
      exact ⟨cancel_follows htracks, now, htimely⟩
  rw [pollEach_eq_forget]
  unfold Turn.Leaves at hleaves
  split at hleaves
  · obtain ⟨now, htracks, htimely⟩ := hleaves
    exact ⟨htracks.follows, now, htimely⟩
  all_goals exact hleaves

end Run

/-! ## Blocking runs -/

/-- No call takes time back. -/
def BlockingWork.Forward (w : BlockingWork σ ε α) : Prop :=
  ∀ now world, now.nanos ≤ (w.call now world).2.1.nanos

namespace Blocking

omit [Failure ε] in
/-- No sleep takes time back. -/
theorem le_of_sleepUntil {wakeAt now ended : Instant} {cancelledFrom : Option Instant}
    {wakeups : List Instant} {full : Bool}
    (h : sleepUntil wakeAt cancelledFrom wakeups now = (full, ended)) :
    now.nanos ≤ ended.nanos := by
  induction wakeups generalizing now with
  | nil =>
    unfold sleepUntil at h
    split at h
    · cases h
      exact le_rfl
    split at h
    · cases h
      exact le_rfl
    · rename_i hread hwake
      -- neither the end of the sleep nor the cancellation has come by now
      obtain rfl := congrArg Prod.snd h
      cases cancelledFrom with
      | none =>
        simp only [Instant.reached, decide_eq_true_eq] at hwake
        simp only
        omega
      | some c =>
        simp only [tokenReads, Option.any_some, Instant.reached, decide_eq_true_eq] at hread hwake
        simp only [Instant.earlier]
        omega
  | cons woken wakeups ih =>
    unfold sleepUntil at h
    split at h
    · cases h
      exact le_rfl
    split at h
    · cases h
      exact le_rfl
    · exact le_trans (Nat.le_max_left _ _) (ih h)

omit [Failure ε] in
theorem le_of_sleep {hasToken full : Bool} {cancelledFrom : Option Instant}
    {wakeups : List Instant} {delay : Duration} {now ended : Instant}
    (h : sleep hasToken cancelledFrom wakeups delay now = some (full, ended)) :
    now.nanos ≤ ended.nanos := by
  unfold sleep at h
  split at h
  · obtain ⟨wakeAt, -, hsleep⟩ := Option.map_eq_some_iff.1 h
    exact le_of_sleepUntil hsleep
  · obtain rfl := congrArg Prod.snd (Option.some.inj h)
    exact Nat.le_add_right _ _

variable {w : BlockingWork σ ε α}

/-- **The attempts of a loop** follow from one another and are timely. The
invariant is that of `loop_closes`, at the time of the next call. -/
theorem loop_follows (hw : w.Forward) (fuel : Nat) {i : Invocation} {now : Instant} {inner : σ}
    {last : Option ε} (hcount : c.starts.length = c.trials.length)
    (his : ((c.started now).standing o draws).Is i last past) (htimely : c.Timely now) :
    let b := loop w.chronicled o draws fuel i now (inner, c)
    b.world.2.Follows o draws (RetryEvent.delays (past ++ b.events)) ∧
      ∃ last, b.world.2.Timely last := by
  induction fuel generalizing i now inner c last past with
  | zero =>
    obtain ⟨hopen, hdelays⟩ := his.unstarted hcount
    refine ⟨?_, now, htimely⟩
    simp only [loop, List.append_nil, ← hdelays]
    exact .of_isOpen (by omega) (by omega) hopen
  | succ n ih =>
    have hforward := hw now inner
    have hstarted : (c.started now).starts.length = (c.started now).trials.length + 1 := by
      simp [hcount]
    rcases hcall : w.call now inner with ⟨_ | ⟨e | v⟩ | m, ended, inner'⟩ <;>
      simp only [hcall] at hforward <;>
      simp only [loop, BlockingWork.chronicled_call hcall]
    all_goals
      have hlater : (c.started now).Timely ended :=
        (htimely.started (by omega)).mono hforward
    · refine ⟨?_, ended, hlater⟩
      rw [List.append_nil, ← his.delays_eq]
      exact .of_isOpen (by rw [Chronicle.shown_waiting]; omega)
        (by rw [Chronicle.shown_waiting]; omega) his.isOpen
    · have hclosed : ((c.started now).closed ended (.ok (.error e))).Timely ended :=
        hlater.closed _
      have hafter := his.after_failure e ended
      cases hdecision : afterFailure o.policy i e ended (draws i.attempt) with
      | stop reason | overflow reason =>
        rw [hdecision] at hafter
        refine ⟨(his.closes hstarted ?_ ?_ rfl).follows, ended, hclosed⟩
        · simp
        · rw [hafter]
      | retry delay =>
        have hnext := his.retried hdecision
        have hfollows := Chronicle.Follows.of_isOpen (by simp [hcount]) (by simp [hcount])
          hnext.isOpen
        rw [hnext.delays_eq] at hfollows
        simp only [BlockingWork.chronicled_cancelledFrom, BlockingWork.chronicled_wakeups,
          Chronicle.shown_finished]
        rcases hsleep : sleep o.hasToken (w.cancelledFrom inner') (w.wakeups inner') delay ended
          with _ | ⟨_ | _, wake⟩
        · exact ⟨hfollows, ended, hclosed⟩
        · refine ⟨?_, wake, hclosed.mono (le_of_sleep hsleep)⟩
          simpa [RetryEvent.delays] using hfollows
        · have hagain : (((c.started now).closed ended (.ok (.error e))).started wake).standing o
              draws = ((c.started now).closed ended (.ok (.error e))).standing o draws :=
            Chronicle.standing_started (by simp) wake
          obtain ⟨hrest, htime⟩ := ih (by simpa using hstarted) (hagain ▸ hnext)
            (hclosed.mono (le_of_sleep hsleep))
          exact ⟨by simpa only [List.append_assoc, List.singleton_append] using hrest, htime⟩
    · simp only [Chronicle.shown_finished]
      refine ⟨(his.closes hstarted (RetryEvent.delays_succeeded _ _) ?_ rfl).follows, ended,
        hlater.closed _⟩
      rw [Standing.after_value his.isOpen]
    · simp only [Chronicle.shown_crashed]
      refine ⟨(his.closes hstarted RetryEvent.delays_nil ?_ rfl).follows, ended,
        hlater.closed _⟩
      rw [Standing.after_crash his.isOpen]

/-- **The attempts of a blocking run** follow from one another and are
timely. -/
theorem chronicle_forward (hw : w.Forward) (limit : Nat) (o : RetryOptions) (draws : Draws)
    (now : Instant) (inner : σ) :
    (chronicle limit w o draws now inner).Follows o draws
        (RetryEvent.delays (runWithin limit w o draws now inner).events) ∧
      ∃ last, (chronicle limit w o draws now inner).Timely last := by
  have hrun : let b := runWithin limit w.chronicled o draws now (inner, .empty)
      b.world.2.Follows o draws (RetryEvent.delays b.events) ∧
        ∃ last, b.world.2.Timely last := by
    unfold runWithin
    split
    · exact ⟨.of_isOpen le_rfl (Nat.zero_le _) rfl, now, Chronicle.timely_empty now⟩
    · have his : (((Chronicle.empty : Chronicle ε α).started now).standing o draws).Is
          (o.begin now) none [] := ⟨rfl, rfl, rfl, rfl⟩
      exact loop_follows hw limit rfl his (Chronicle.timely_empty now)
  rw [runWithin_eq_forget]
  exact hrun

end Blocking

end ResilientCalls
