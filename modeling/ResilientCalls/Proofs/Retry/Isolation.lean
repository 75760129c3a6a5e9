import ResilientCalls.Proofs.Retry.Cancellation
import ResilientCalls.Retry.Family
/-!
# Spawned runs by themselves

The runs of a family share the clock and the caller's token. Of all that
happens to a family, `pollsAt` keeps what concerns one place: the polls of
the run there, each with the reading of a token that is cancelled where
that handle is cancelled or dropped, or the caller's token is. A run among
others is the bare run under these polls, so whatever is said of a run
that is polled from outside holds of every spawned one.
-/

namespace ResilientCalls

variable {σ τ ε α : Type} [Failure ε]

/-! ## Runs that can be polled -/

/-- The run has these options, and has not settled. -/
def Run.IsOpen (o : RetryOptions) (r : Run τ ε) : Prop := r.options = o ∧ r.phase ≠ .settled

namespace Run

variable {w : Work σ τ ε α} {draws : Draws} {now : Instant} {r : Run τ ε} {o : RetryOptions}

/-- A transition that does not end a run leaves it open. -/
theorem step_keeps_isOpen {past : List RetryEvent} {world : σ} (h : r.IsOpen o) :
    (r.step w draws now world).Keeps (fun _ r _ => r.IsOpen o) (fun _ _ _ => True) past := by
  obtain ⟨ho, hphase⟩ := h
  have hlaunch : ∀ i, (r.launch w now i world).Keeps (fun _ r _ => r.IsOpen o)
      (fun _ _ _ => True) past := by
    intro i
    rcases hstart : w.start now world with ⟨message | attempt, world'⟩ <;>
      simp [launch, hstart, Turn.Keeps, IsOpen, ho]
  unfold step
  cases hp : r.phase with
  | idle => exact hlaunch _
  | settled => exact absurd hp hphase
  | backingOff timer i =>
    simp only []
    split
    · exact hlaunch _
    · exact ⟨ho, hphase⟩
  | attempting attempt i =>
    rcases hlook : w.look now attempt world with ⟨_ | ⟨e | v⟩ | m, world'⟩ <;> simp only [hlook]
    · exact ⟨ho, hphase⟩
    · unfold afterFailedAttempt
      cases afterFailure r.options.policy i e now (draws i.attempt) <;>
        simp [Turn.Keeps, IsOpen, ho]
    · trivial
    · trivial

/-- **A run that is pending after a poll is open.** -/
theorem isOpen_of_poll {cancelled : Bool} {world : σ} (h : r.IsOpen o)
    (hpending : (r.poll w draws now cancelled world).result = .pending) :
    (r.poll w draws now cancelled world).run.IsOpen o := by
  have hleaves : (r.poll w draws now cancelled world).Leaves (fun _ r _ => r.IsOpen o)
      (fun _ _ _ => True) [] :=
    poll_leaves (fun _ _ _ => step_keeps_isOpen) (fun _ _ _ _ _ _ => trivial) h
  simpa only [Turn.Leaves, hpending] using hleaves

/-- An open run with a token settles where it reads the token cancelled. -/
theorem poll_of_cancelled (h : r.IsOpen o) (htoken : o.hasToken = true) (world : σ) :
    r.poll w draws now true world = r.cancel now world := by
  have hread : (r.options.hasToken && true && !r.phase.isSettled) = true := by
    obtain ⟨ho, hphase⟩ := h
    rw [ho, htoken]
    cases hp : r.phase with
    | settled => exact absurd hp hphase
    | idle | attempting | backingOff => rfl
  exact if_pos hread

end Run

/-! ## What concerns one place -/

namespace FamilyAction

/-- The action cancels the token that the run at a place watches. -/
def cancels (o : RetryOptions) (i : Nat) : FamilyAction σ τ ε α → Bool
  | .cancel j | .drop j => j == i
  | .cancelCaller => o.hasToken
  | .spawn _ _ _ | .poll _ | .wait _ => false

/-- The time after the action. -/
def clock (now : Instant) : FamilyAction σ τ ε α → Instant
  | .wait d => now.plus d
  | .spawn _ _ _ | .poll _ | .cancel _ | .drop _ | .cancelCaller => now

/-- The action polls the run at a place. -/
def polls (i : Nat) : FamilyAction σ τ ε α → Bool
  | .poll j => j == i
  | .spawn _ _ _ | .cancel _ | .drop _ | .cancelCaller | .wait _ => false

end FamilyAction

/-- **The polls of the run at a place** among some actions that begin at
`now`: when they happen, and whether the token that this run watches has
been cancelled by then. -/
def pollsAt (o : RetryOptions) (i : Nat) :
    Instant → Bool → List (FamilyAction σ τ ε α) → List (Instant × Bool)
  | _, _, [] => []
  | now, cancelled, a :: rest =>
    let later := pollsAt o i (a.clock now) (cancelled || a.cancels o i) rest
    if a.polls i then (now, cancelled) :: later else later

omit [Failure ε] in
/-- A token that has been cancelled stays so. -/
theorem eq_true_of_mem_pollsAt {o : RetryOptions} {i : Nat} {now : Instant}
    {actions : List (FamilyAction σ τ ε α)} {poll : Instant × Bool}
    (h : poll ∈ pollsAt o i now true actions) : poll.2 = true := by
  induction actions generalizing now with
  | nil => cases h
  | cons a rest ih =>
    simp only [pollsAt, Bool.true_or] at h
    split at h
    · rcases List.mem_cons.1 h with rfl | hrest
      · rfl
      · exact ih hrest
    · exact ih h

omit [Failure ε] in
/-- A run that is polled has a first poll. -/
theorem pollsAt_ne_nil {o : RetryOptions} {i : Nat} {now : Instant} {cancelled : Bool}
    {actions : List (FamilyAction σ τ ε α)} (h : .poll i ∈ actions) :
    pollsAt o i now cancelled actions ≠ [] := by
  induction actions generalizing now cancelled with
  | nil => cases h
  | cons a rest ih =>
    simp only [pollsAt]
    rcases List.mem_cons.1 h with rfl | hrest
    · simp [FamilyAction.polls]
    · split
      · exact List.cons_ne_nil _ _
      · exact ih hrest

namespace Member

/-- What an action at `now` does to the member at place `i`. -/
def after (i : Nat) (now : Instant) (m : Member σ τ ε α) : FamilyAction σ τ ε α → Member σ τ ε α
  | .poll j => if j = i then m.visit now else m
  | .cancel j => if j = i then m.onHandle (·.cancel now) else m
  | .drop j => if j = i then m.onHandle (·.drop now) else m
  | .cancelCaller => m.onHandle (·.cancelCaller now)
  | .spawn _ _ _ | .wait _ => m

/-- What actions from `now` on do to the member at place `i`. -/
def afterAll (i : Nat) : Instant → Member σ τ ε α → List (FamilyAction σ τ ε α) → Member σ τ ε α
  | _, m, [] => m
  | now, m, a :: rest => afterAll i (a.clock now) (m.after i now a) rest

end Member

namespace Family

variable {f : Family σ τ ε α} {a : FamilyAction σ τ ε α} {i : Nat} {m : Member σ τ ε α}

@[simp] theorem now_act : (f.act a).now = a.clock f.now := by
  cases a <;> rfl

@[simp] theorem options_act : (f.act a).options = f.options := by
  cases a <;> rfl

@[simp] theorem afterAll_nil : f.afterAll [] = f := rfl

@[simp] theorem afterAll_cons (later : List (FamilyAction σ τ ε α)) :
    f.afterAll (a :: later) = (f.act a).afterAll later := rfl

/-- An action does to each member what it does to the member's place. -/
theorem member_act (h : f.members[i]? = some m) :
    (f.act a).members[i]? = some (m.after i f.now a) := by
  have hlength : i < f.members.length := (List.getElem?_eq_some_iff.1 h).1
  cases a with
  | spawn work draws world =>
    simp only [act, Member.after]
    rw [List.getElem?_append_left hlength, h]
  | wait d => exact h
  | cancelCaller => simp [act, Member.after, h]
  | poll j | cancel j | drop j =>
    simp only [act, Member.after, List.getElem?_modify, h]
    split <;> rfl

/-- **Each member goes its own way,** whatever happens to the others. -/
theorem member_afterAll (later : List (FamilyAction σ τ ε α)) (h : f.members[i]? = some m) :
    (f.afterAll later).members[i]? = some (m.afterAll i f.now later) := by
  induction later generalizing f m with
  | nil => exact h
  | cons a rest ih =>
    rw [afterAll_cons, ih (member_act h), now_act]
    rfl

end Family

/-! ## What holds of every member -/

/-- A member of a family with these options, at the time `now`. -/
structure Member.IsOf (o : RetryOptions) (now : Instant) (m : Member σ τ ε α) : Prop where
  caller : m.handle.hasCaller = o.hasToken
  /-- A token is cancelled at some time before. -/
  past : ∀ t, m.handle.cancelledFrom = some t → t.nanos ≤ now.nanos
  /-- A handle that is no longer held was dropped. -/
  dropped : m.handle.isHeld = false → m.handle.cancelledFrom ≠ none
  isOpen : m.handle.course.ending = .pending → m.handle.course.run.IsOpen o.withToken

namespace Member

variable {o : RetryOptions} {now : Instant} {m : Member σ τ ε α} {i : Nat}
  {a : FamilyAction σ τ ε α}

omit [Failure ε] in
/-- The token of a member is read as cancelled once it was cancelled. -/
theorem IsOf.reading (h : m.IsOf o now) :
    m.handle.cancelledFrom.any (·.reached now) = m.handle.cancelledFrom.isSome := by
  cases hfrom : m.handle.cancelledFrom with
  | none => rfl
  | some t => simpa [Instant.reached] using h.past t hfrom

/-- Only a poll touches the run. -/
theorem course_after (h : a.polls i = false) :
    (m.after i now a).handle.course = m.handle.course := by
  cases a with
  | poll j => simp [FamilyAction.polls] at h; simp [after, h]
  | cancel j | drop j =>
    simp only [after, onHandle, Handle.cancel, Handle.drop]
    repeat' split
    all_goals rfl
  | cancelCaller =>
    simp only [after, onHandle, Handle.cancelCaller, Handle.cancel]
    split <;> rfl
  | spawn | wait => rfl

theorem work_after : (m.after i now a).work = m.work := by
  cases a <;> simp only [after, onHandle, visit] <;> (try split) <;> rfl

theorem draws_after : (m.after i now a).draws = m.draws := by
  cases a <;> simp only [after, onHandle, visit] <;> (try split) <;> rfl

/-- A visit of a run that is pending polls it, with a true reading of its
token. -/
theorem IsOf.visit_course (h : m.IsOf o now) (hpending : m.handle.course.ending = .pending) :
    let t := m.handle.course.run.poll m.work m.draws now m.handle.cancelledFrom.isSome
      m.handle.course.world
    (m.visit now).handle.course = ⟨now, t.run, t.world, t.events, t.result⟩ := by
  intro t
  simp only [visit, onHandle, Handle.visit, hpending, Course.pollNow, h.reading, t]

/-- A run that has ended is not polled again. -/
theorem visit_of_ended (h : m.handle.course.ending ≠ .pending) : m.visit now = m := by
  have hvisit : m.handle.visit m.work m.draws now = m.handle := by
    unfold Handle.visit
    split
    · exact absurd ‹_› h
    · rfl
  simp only [visit, onHandle, hvisit]

/-- A visit is no cancellation. -/
theorem cancelledFrom_visit : (m.visit now).handle.cancelledFrom = m.handle.cancelledFrom := by
  simp only [visit, onHandle, Handle.visit]
  split <;> rfl

/-- **A member's token is cancelled by what cancels it,** and by nothing
else. -/
theorem IsOf.isSome_after (h : m.IsOf o now) :
    (m.after i now a).handle.cancelledFrom.isSome =
      (m.handle.cancelledFrom.isSome || a.cancels o i) := by
  cases a with
  | spawn | wait => simp [after, FamilyAction.cancels]
  | poll j =>
    simp only [after, FamilyAction.cancels, Bool.or_false]
    split
    · rw [cancelledFrom_visit]
    · rfl
  | cancel j =>
    by_cases hj : j = i <;> simp [after, onHandle, Handle.cancel, FamilyAction.cancels, hj]
  | drop j =>
    by_cases hj : j = i
    · cases hheld : m.handle.isHeld with
      | true => simp [after, onHandle, Handle.drop, Handle.cancel, FamilyAction.cancels, hj, hheld]
      | false =>
        have hsome := Option.isSome_iff_ne_none.2 (h.dropped hheld)
        simp [after, onHandle, Handle.drop, FamilyAction.cancels, hj, hheld, hsome]
    · simp [after, FamilyAction.cancels, hj]
  | cancelCaller =>
    cases htoken : o.hasToken <;>
      simp [after, onHandle, Handle.cancelCaller, Handle.cancel, FamilyAction.cancels, h.caller,
        htoken]

omit [Failure ε] in
theorem IsOf.cancelled (h : m.IsOf o now) : (m.onHandle (·.cancel now)).IsOf o now := by
  refine ⟨h.caller, ?_, ?_, h.isOpen⟩
  · intro t ht
    cases hfrom : m.handle.cancelledFrom with
    | none =>
      simp only [onHandle, Handle.cancel, hfrom, Option.none_or, Option.some.injEq] at ht
      rw [← ht]
    | some u =>
      simp only [onHandle, Handle.cancel, hfrom, Option.some_or, Option.some.injEq] at ht
      exact ht ▸ h.past u hfrom
  · simp [onHandle, Handle.cancel]

theorem IsOf.visited (h : m.IsOf o now) : (m.visit now).IsOf o now := by
  by_cases hpending : m.handle.course.ending = .pending
  · have hcourse := h.visit_course hpending
    refine ⟨?_, ?_, ?_, ?_⟩
    · simp only [visit, onHandle, Handle.visit, hpending]
      exact h.caller
    · rw [cancelledFrom_visit]
      exact h.past
    · rw [cancelledFrom_visit]
      simp only [visit, onHandle, Handle.visit, hpending]
      exact h.dropped
    · rw [hcourse]
      exact Run.isOpen_of_poll (h.isOpen hpending)
  · rwa [visit_of_ended hpending]

/-- **A member stays one,** whatever happens. -/
theorem IsOf.after (h : m.IsOf o now) (i : Nat) (a : FamilyAction σ τ ε α) :
    (m.after i now a).IsOf o (a.clock now) := by
  cases a with
  | spawn work draws world => exact h
  | wait d => exact ⟨h.caller, fun t ht => Nat.le_trans (h.past t ht) (Nat.le_add_right _ _),
      h.dropped, h.isOpen⟩
  | poll j =>
    simp only [Member.after, FamilyAction.clock]
    split
    · exact h.visited
    · exact h
  | cancel j =>
    simp only [Member.after, FamilyAction.clock]
    split
    · exact h.cancelled
    · exact h
  | drop j =>
    simp only [Member.after, FamilyAction.clock]
    split
    · have hcancelled := h.cancelled
      simp only [onHandle, Handle.drop]
      split
      · exact ⟨hcancelled.caller, hcancelled.past, fun _ => by simp [Handle.cancel],
          hcancelled.isOpen⟩
      · exact h
    · exact h
  | cancelCaller =>
    simp only [Member.after, FamilyAction.clock, onHandle, Handle.cancelCaller]
    split
    · exact h.cancelled
    · exact h

/-! ## A member by itself -/

/-- A run that has ended stays as it is. -/
theorem course_afterAll_of_ended (actions : List (FamilyAction σ τ ε α))
    (h : m.handle.course.ending ≠ .pending) :
    (m.afterAll i now actions).handle.course = m.handle.course := by
  induction actions generalizing now m with
  | nil => rfl
  | cons a rest ih =>
    have hafter : (m.after i now a).handle.course = m.handle.course := by
      by_cases hpolls : a.polls i = true
      · cases a with
        | poll j =>
          simp only [after]
          split
          · rw [visit_of_ended h]
          · rfl
        | spawn | cancel | drop | cancelCaller | wait => cases hpolls
      · exact course_after (by simpa using hpolls)
    rw [afterAll, ih (by rwa [hafter]), hafter]

/-- **A member among others is the run by itself** under the polls at its
place. -/
theorem IsOf.course_afterAll (h : m.IsOf o now) (hpending : m.handle.course.ending = .pending)
    (actions : List (FamilyAction σ τ ε α)) :
    let c := (m.afterAll i now actions).handle.course
    let bare := m.handle.course.run.pollEach m.work m.draws
      (pollsAt o i now m.handle.cancelledFrom.isSome actions) m.handle.course.world
    c.run = bare.run ∧ c.world = bare.world ∧ c.ending = bare.result := by
  induction actions generalizing now m with
  | nil => exact ⟨rfl, rfl, hpending⟩
  | cons a rest ih =>
    have hrest := @ih (a.clock now) (m.after i now a) (h.after i a)
    rw [h.isSome_after, work_after, draws_after] at hrest
    simp only [afterAll, pollsAt]
    by_cases hpolls : a.polls i = true
    · -- the run is polled, and goes on or ends
      obtain rfl : a = .poll i := by
        cases a with
        | poll j => simpa [FamilyAction.polls] using hpolls
        | spawn | cancel | drop | cancelCaller | wait => cases hpolls
      have hcourse := h.visit_course hpending
      have hvisit : m.after i now (.poll i) = m.visit now := if_pos rfl
      rw [hvisit, hcourse] at hrest
      rw [if_pos hpolls, hvisit]
      simp only [Run.pollEach]
      rcases hresult : (m.handle.course.run.poll m.work m.draws now
        m.handle.cancelledFrom.isSome m.handle.course.world).result with _ | outcome | message <;>
        simp only []
      · exact hrest hresult
      all_goals
        have hended : (m.visit now).handle.course.ending ≠ .pending := by
          rw [hcourse]
          simp [hresult]
        rw [course_afterAll_of_ended rest hended, hcourse]
        exact ⟨rfl, rfl, rfl⟩
    · rw [course_after (by simpa using hpolls)] at hrest
      rw [if_neg hpolls]
      exact hrest hpending

/-- **A cancelled run does no more work.** Whatever happens, its world and
its attempts stay, and once it is polled it has ended. -/
theorem IsOf.afterAll_of_cancelled (h : m.IsOf o now) (hfrom : m.handle.cancelledFrom ≠ none)
    (actions : List (FamilyAction σ τ ε α)) :
    let m' := m.afterAll i now actions
    m'.handle.course.world = m.handle.course.world ∧ m'.handle.attempts = m.handle.attempts ∧
      (m.handle.course.ending = .pending → .poll i ∈ actions →
        ∃ last n elapsed,
          m'.handle.course.ending = .settled (.error (.cancelled last n elapsed))) := by
  intro m'
  by_cases hpending : m.handle.course.ending = .pending
  · obtain ⟨hrun, hworld, hending⟩ := h.course_afterAll (i := i) hpending actions
    rw [Option.isSome_iff_ne_none.2 hfrom] at hrun hworld hending
    -- the first poll, if there is one, settles the run
    rcases hpolls : pollsAt o i now true actions with _ | ⟨⟨t, cancelled⟩, later⟩
    · rw [hpolls] at hrun hworld
      refine ⟨hworld, congrArg Run.attempts hrun, ?_⟩
      intro _ hmem
      exact absurd hpolls (pollsAt_ne_nil hmem)
    · obtain rfl : cancelled = true :=
        eq_true_of_mem_pollsAt (hpolls ▸ List.mem_cons_self : (t, cancelled) ∈ _)
      have hcancel : m.handle.course.run.pollEach m.work m.draws ((t, true) :: later)
          m.handle.course.world = m.handle.course.run.cancel t m.handle.course.world := by
        rw [Run.pollEach, Run.poll_of_cancelled (h.isOpen hpending) rfl]
        rfl
      rw [hpolls, hcancel] at hrun hworld hending
      refine ⟨hworld, ?_, fun _ _ => ⟨_, _, _, hending⟩⟩
      rw [Handle.attempts, show m'.handle.course.run = _ from hrun]
      rfl
  · have hcourse : (m.afterAll i now actions).handle.course = m.handle.course :=
      course_afterAll_of_ended actions hpending
    exact ⟨by rw [hcourse], by rw [Handle.attempts, hcourse, Handle.attempts],
      fun hp => absurd hp hpending⟩

end Member

/-! ## Families -/

namespace Family

variable {f : Family σ τ ε α} {i j : Nat} {m : Member σ τ ε α}

/-- A run that is spawned is a member, pending and not polled. -/
theorem isOf_spawned (w : Work σ τ ε α) (draws : Draws) (world : σ) :
    (f.spawned w draws world).IsOf f.options f.now := by
  have hnew : (⟨w, draws, Handle.spawn f.options f.now world⟩ : Member σ τ ε α).IsOf
      f.options f.now :=
    ⟨rfl, by simp [Handle.spawn], by simp [Handle.spawn],
      fun _ => ⟨rfl, by simp [Handle.spawn, Course.begin, Run.new]⟩⟩
  unfold spawned
  split
  · exact hnew.after 0 .cancelCaller
  · exact hnew

/-- The members after an action are those before it, and perhaps one that
is new. -/
theorem isOf_act {a : FamilyAction σ τ ε α} (h : ∀ m ∈ f.members, m.IsOf f.options f.now) :
    ∀ m ∈ (f.act a).members, m.IsOf f.options (f.act a).now := by
  intro m hmem
  obtain ⟨i, hi⟩ := List.mem_iff_getElem?.1 hmem
  rw [now_act]
  rcases hbefore : f.members[i]? with _ | m₀
  · cases a with
    | spawn w draws world =>
      rcases List.mem_append.1 hmem with hold | hnew
      · exact h m hold
      · rw [List.mem_singleton.1 hnew]
        exact isOf_spawned w draws world
    | wait d => exact absurd (hbefore.symm.trans hi) (by simp)
    | poll j | cancel j | drop j | cancelCaller => simp [act, List.getElem?_modify, hbefore] at hi
  · obtain rfl := Option.some.inj ((member_act hbefore).symm.trans hi)
    exact (h m₀ (List.mem_of_getElem? hbefore)).after i a

/-- **Whoever is in a family is one of its members,** whatever has
happened. -/
theorem isOf_afterAll (earlier : List (FamilyAction σ τ ε α))
    (h : ∀ m ∈ f.members, m.IsOf f.options f.now) :
    (f.afterAll earlier).options = f.options ∧
      ∀ m ∈ (f.afterAll earlier).members, m.IsOf f.options (f.afterAll earlier).now := by
  induction earlier generalizing f with
  | nil => exact ⟨rfl, h⟩
  | cons a rest ih =>
    have hrest := ih (f := f.act a) (by rw [options_act]; exact isOf_act h)
    rwa [options_act] at hrest

/-- What cancels at one place only leaves the caller's token and the other
members as they are. -/
theorem act_elsewhere {a : FamilyAction σ τ ε α} (h : a = .cancel i ∨ a = .drop i) :
    (f.act a).callerCancelled = f.callerCancelled ∧
      ∀ j, j ≠ i → (f.act a).members[j]? = f.members[j]? := by
  rcases h with rfl | rfl
  all_goals
    refine ⟨rfl, ?_⟩
    intro j hj
    simp only [act, List.getElem?_modify, if_neg (Ne.symm hj), id_map']

variable {o : RetryOptions}

omit [Failure ε] in
/-- A run that is spawned has not been polled, and watches a token that is
cancelled if the caller's is. -/
theorem spawned_begins (w : Work σ τ ε α) (draws : Draws) (world : σ) :
    (f.spawned w draws world).work = w ∧ (f.spawned w draws world).draws = draws ∧
      (f.spawned w draws world).handle.course = .begin f.options.withToken f.now world ∧
      (f.spawned w draws world).handle.cancelledFrom.isSome =
        (f.callerCancelled && f.options.hasToken) := by
  unfold spawned
  cases f.callerCancelled
  · exact ⟨rfl, rfl, rfl, rfl⟩
  · cases htoken : f.options.hasToken <;>
      simp [Handle.cancelCaller, Handle.cancel, Handle.spawn, htoken]

/-- **A spawned run is the bare run** under the polls at its place. -/
theorem spawned_afterAll (w : Work σ τ ε α) (draws : Draws) (world : σ)
    (later : List (FamilyAction σ τ ε α)) :
    let place := f.members.length
    let bare := (Run.new f.options.withToken).pollEach w draws
      (pollsAt f.options place f.now (f.callerCancelled && f.options.hasToken) later) world
    ∃ m, ((f.act (.spawn w draws world)).afterAll later).members[place]? = some m ∧
      m.handle.course.ending = bare.result ∧ m.handle.course.run = bare.run ∧
      m.handle.course.world = bare.world := by
  intro place bare
  have hplace : (f.act (.spawn w draws world)).members[place]? =
      some (f.spawned w draws world) := by
    simp [act, place]
  obtain ⟨hwork, hdraws, hcourse, hread⟩ := f.spawned_begins w draws world
  have hbare := (f.isOf_spawned w draws world).course_afterAll (i := place)
    (by rw [hcourse]; rfl) later
  rw [hwork, hdraws, hcourse, hread] at hbare
  exact ⟨_, member_afterAll later hplace, hbare.2.2, hbare.1, hbare.2.1⟩

/-- Cancelling the caller's token ends a run that watches it. -/
theorem cancelCaller_afterAll (hm : f.members[i]? = some m) (h : m.IsOf o f.now)
    (htoken : o.hasToken = true) (hpending : m.handle.course.ending = .pending)
    {later : List (FamilyAction σ τ ε α)} (hpoll : .poll i ∈ later) :
    ∃ m' last n elapsed, ((f.act .cancelCaller).afterAll later).members[i]? = some m' ∧
      m'.handle.course.ending = .settled (.error (.cancelled last n elapsed)) := by
  have hafter := h.after i .cancelCaller
  have hfrom : (m.after i f.now .cancelCaller).handle.cancelledFrom ≠ none := by
    rw [← Option.isSome_iff_ne_none, h.isSome_after]
    simp [FamilyAction.cancels, htoken]
  have hcourse : (m.after i f.now .cancelCaller).handle.course = m.handle.course :=
    Member.course_after rfl
  obtain ⟨-, -, hends⟩ := hafter.afterAll_of_cancelled (i := i) hfrom later
  obtain ⟨last, n, elapsed, hended⟩ := hends (by rw [hcourse, hpending]) hpoll
  exact ⟨_, last, n, elapsed, member_afterAll later (member_act hm), hended⟩

/-- A run whose handle was cancelled or dropped does no more work. -/
theorem stopped_afterAll (hm : f.members[i]? = some m) (h : m.IsOf o f.now)
    {a : FamilyAction σ τ ε α} (ha : a = .cancel i ∨ a = .drop i)
    (later : List (FamilyAction σ τ ε α)) :
    ∃ m', ((f.act a).afterAll later).members[i]? = some m' ∧
      m'.handle.course.world = m.handle.course.world ∧
      m'.handle.attempts = m.handle.attempts := by
  have hpolls : a.polls i = false := by rcases ha with rfl | rfl <;> rfl
  have hclock : a.clock f.now = f.now := by rcases ha with rfl | rfl <;> rfl
  have hcancels : a.cancels o i = true := by
    rcases ha with rfl | rfl <;> simp [FamilyAction.cancels]
  have hafter := h.after i a
  rw [hclock] at hafter
  have hfrom : (m.after i f.now a).handle.cancelledFrom ≠ none := by
    rw [← Option.isSome_iff_ne_none, h.isSome_after, hcancels, Bool.or_true]
  have hcourse : (m.after i f.now a).handle.course = m.handle.course := Member.course_after hpolls
  obtain ⟨hworld, hattempts, -⟩ := hafter.afterAll_of_cancelled (i := i) hfrom later
  refine ⟨_, member_afterAll later (member_act hm), ?_, ?_⟩
  · rw [now_act, hclock, hworld, hcourse]
  · rw [now_act, hclock, hattempts, Handle.attempts, hcourse, Handle.attempts]

end Family

omit [Failure ε] in
/-- A run that is awaited in vain is pending. -/
theorem Handle.awaited?_eq_none {h : Handle σ τ ε α} :
    h.awaited? = none ↔ h.course.ending = .pending := by
  unfold awaited? Ending.final?
  cases h.course.ending <;> simp

open Family in
/-- **Spawned runs are isolated.** Runs are spawned from one set of
options, with or without a caller's token, and polled, cancelled and
dropped in any order.

A run that is spawned at any time does what the bare run does under the
polls at its place: awaiting its handle gives the same ending, the same
attempts are counted, and the world is the same, which for work with a
chronicle tells when each attempt was started. Cancelling or dropping a
handle changes neither the caller's token nor any other handle. The
caller's token, if the runs were given one, cancels every handle whose run
has not ended. After a handle was cancelled or dropped, the world of its
run stays as it is, so its work is not started again. -/
theorem spawned_isolated (o : RetryOptions) (begins : Instant)
    (earlier : List (FamilyAction σ τ ε α)) :
    let f := (Family.new o begins).afterAll earlier
    (∀ (w : Work σ τ ε α) (draws : Draws) (world : σ) (later : List (FamilyAction σ τ ε α)),
      let place := f.members.length
      let bare := (Run.new o.withToken).pollEach w draws
        (pollsAt o place f.now (f.callerCancelled && o.hasToken) later) world
      ∃ m, ((f.act (.spawn w draws world)).afterAll later).members[place]? = some m ∧
        m.handle.awaited? = bare.result.final? ∧ m.handle.attempts = bare.run.attempts ∧
        m.handle.course.world = bare.world) ∧
    (∀ i a, a = .cancel i ∨ a = .drop i →
      (f.act a).callerCancelled = f.callerCancelled ∧
        ∀ j, j ≠ i → (f.act a).members[j]? = f.members[j]?) ∧
    (∀ i m later, f.members[i]? = some m → m.handle.awaited? = none → o.hasToken = true →
      .poll i ∈ later →
      ∃ m' last n elapsed, ((f.act .cancelCaller).afterAll later).members[i]? = some m' ∧
        m'.handle.awaited? = some (.settled (.error (.cancelled last n elapsed)))) ∧
    (∀ i m a later, f.members[i]? = some m → a = .cancel i ∨ a = .drop i →
      ∃ m', ((f.act a).afterAll later).members[i]? = some m' ∧
        m'.handle.course.world = m.handle.course.world ∧
        m'.handle.attempts = m.handle.attempts) := by
  intro f
  obtain ⟨ho, hmembers⟩ := isOf_afterAll earlier
    (show ∀ m ∈ (Family.new o begins : Family σ τ ε α).members, m.IsOf o begins from by
      simp [Family.new])
  replace ho : f.options = o := ho
  refine ⟨?_, fun i a => act_elsewhere, ?_, ?_⟩
  · intro w draws world later place bare
    obtain ⟨m, hm, hending, hrun, hworld⟩ := f.spawned_afterAll w draws world later
    rw [ho] at hending hrun hworld
    exact ⟨m, hm, congrArg Ending.final? hending, congrArg Run.attempts hrun, hworld⟩
  · intro i m later hm hawaited htoken hpoll
    obtain ⟨m', last, n, elapsed, hm', hended⟩ := cancelCaller_afterAll hm
      (hmembers m (List.mem_of_getElem? hm)) htoken (Handle.awaited?_eq_none.1 hawaited) hpoll
    exact ⟨m', last, n, elapsed, hm', congrArg Ending.final? hended⟩
  · intro i m a later hm ha
    exact stopped_afterAll hm (hmembers m (List.mem_of_getElem? hm)) ha later

/-- Two runs with a caller's token. The second makes both its attempts while
the first is cancelled; and the first, in its pause, ends when the caller
cancels, and starts nothing more when it is dropped. -/
theorem spawned_isolated_siblings :
    let spawn : FamilyAction (Unit × Chronicle String Nat) Unit String Nat :=
      .spawn unavailable.chronicled .still ((), .empty)
    let o := twoAttempts.withToken
    let f := (Family.new o ⟨0⟩).afterAll [spawn, .poll 0]
    let later : List (FamilyAction (Unit × Chronicle String Nat) Unit String Nat) :=
      [.poll 1, .cancel 0, .poll 0, .wait ⟨100000000⟩, .poll 1]
    (∃ m, ((f.act spawn).afterAll later).members[1]? = some m ∧
      m.handle.awaited? =
        some (.settled (.error (.attemptsExhausted "UNAVAILABLE" 2 ⟨100000000⟩))) ∧
      m.handle.attempts = 2 ∧ m.handle.course.world.2.starts = [⟨0⟩, ⟨100000000⟩]) ∧
    (∃ m' last n elapsed, ((f.act .cancelCaller).afterAll [.poll 0]).members[0]? = some m' ∧
      m'.handle.awaited? = some (.settled (.error (.cancelled last n elapsed)))) ∧
    (∃ m', ((f.act (.drop 0)).afterAll [.wait ⟨100000000⟩, .poll 0]).members[0]? = some m' ∧
      m'.handle.attempts = 1) := by
  intro spawn o f later
  obtain ⟨hbare, -, hcaller, hstopped⟩ := spawned_isolated o ⟨0⟩ [spawn, .poll 0]
  have hfirst : (f.members[0]?).map (fun m => (m.handle.awaited?, m.handle.attempts)) =
      some (none, 1) := by decide +kernel
  obtain ⟨m₀, hm₀, hpending⟩ := Option.map_eq_some_iff.1 hfirst
  simp only [Prod.mk.injEq] at hpending
  refine ⟨?_, hcaller 0 m₀ [.poll 0] hm₀ hpending.1 rfl (by simp), ?_⟩
  · obtain ⟨m, hm, hawaited, hattempts, hworld⟩ := hbare unavailable.chronicled .still
      ((), .empty) later
    refine ⟨m, hm, hawaited.trans ?_, hattempts.trans ?_, (congrArg (·.2.starts) hworld).trans ?_⟩
    all_goals decide +kernel
  · obtain ⟨m', hm', -, hattempts⟩ := hstopped 0 m₀ (.drop 0) [.wait ⟨100000000⟩, .poll 0] hm₀
      (Or.inr rfl)
    exact ⟨m', hm', hattempts.trans hpending.2⟩

end ResilientCalls
