import ResilientCalls.Proofs.Service.Dispatch
import ResilientCalls.Proofs.Service.ExactlyOnce
/-!
# A workflow is started once

A start carries an id of its own, and the service keeps it with the
workflow. So a start that comes again is told from another start of the
same workflow: the one gets the run that it has begun, the other is
refused, and neither changes anything (`answered_of_stored`). A workflow
that is stored stays stored, whether its task has been polled or completed
meanwhile, so this holds at any later time (`stored_of_seen`). A call of a
client reuses one request for all its attempts; if it ends with the refusal
of a stored workflow, then another request has started the workflow, or the
refusal was injected: `Traffic.Explained`.
-/

namespace ResilientCalls

open Store

/-! ## Starts among other events -/

namespace Store

variable {s : Store} {e : StoreEvent} {r : StartRequest} {w : Workflow}

/-- A start adds a new workflow with its run and its first event, and makes
its task wait. -/
structure Starts (s s' : Store) (r : StartRequest) : Prop where
  isNew : s.workflow? r.workflowId = none
  workflows : s'.workflows = s.workflows ++ [(r.workflowId, newWorkflow r s.nextRunId)]
  pending : s'.pending = s.pending ++ [⟨r.taskQueue, r.workflowId⟩]

/-- **What an event of a start does:** nothing, or it starts the
workflow. -/
theorem start_cases (h : e.IsOf (.start r)) :
    (s.Alike (e.apply s) ∧ s.started? e = none) ∨
      (s.Starts (e.apply s) r ∧ s.started? e = some r) := by
  rcases hanswer : e.answered? s with _ | ⟨q, status | answer⟩
  · exact .inl ⟨alike_of_unanswered hanswer, by simp [started?, hanswer]⟩
  · exact .inl ⟨alike_of_refused hanswer, by simp [started?, hanswer]⟩
  · obtain rfl := h.eq_of_answered hanswer
    have hserve := serve_of_answered hanswer
    cases hstored : s.workflow? r.workflowId with
    | none =>
      rw [serve_start_of_new hstored] at hserve
      have hstore := (Prod.mk.inj hserve).2
      exact .inr ⟨⟨hstored, by rw [← hstore], by rw [← hstore]⟩,
        by simp [started?, hanswer, hstored]⟩
    | some w =>
      rw [serve_start_of_stored hstored] at hserve
      refine .inl ⟨?_, by simp [started?, hanswer, hstored]⟩
      rw [← (Prod.mk.inj hserve).2]
      exact .refl s

/-- An event of a start of a stored workflow changes nothing. -/
theorem alike_of_stored (hw : s.workflow? r.workflowId = some w) (h : e.IsOf (.start r)) :
    s.Alike (e.apply s) := by
  rcases start_cases (s := s) h with ⟨halike, -⟩ | ⟨hstarts, -⟩
  · exact halike
  · rw [hstarts.isNew] at hw
    cases hw

/-- **A start of a stored workflow** is answered by who has started it,
unless it fails by injection. -/
theorem answered_of_stored (hw : s.workflow? r.workflowId = some w) (h : e.IsOf (.start r))
    {q : Request} {answer : Except Status Answer} (hanswer : e.answered? s = some (q, answer)) :
    (∃ status ∈ s.failures.get .startWorkflow, answer = .error status) ∨
      answer = startAgain w r := by
  cases h with
  | arrive => cases hanswer
  | serve =>
    cases hanswer
    rw [serve_start_of_stored hw]
    exact .inr rfl
  | settle =>
    cases hanswer
    unfold settle
    split
    · next status rest hfailures =>
      have hfirst : status ∈ s.failures.get .startWorkflow :=
        (show s.failures.get .startWorkflow = status :: rest from hfailures) ▸ List.mem_cons_self
      exact .inl ⟨status, hfirst, rfl⟩
    · rw [serve_start_of_stored hw]
      exact .inr rfl

/-- A start that is answered with a run has stored its workflow, or finds
it stored under its own request. -/
theorem stored_of_answered {answer : Answer}
    (hanswer : e.answered? s = some (.start r, .ok answer)) :
    ∃ w, (e.apply s).workflow? r.workflowId = some w ∧ w.requestId = r.requestId ∧
      answer = .start ⟨w.runId⟩ := by
  have hserve := serve_of_answered hanswer
  cases hstored : s.workflow? r.workflowId with
  | none =>
    rw [serve_start_of_new hstored] at hserve
    obtain ⟨hok, hstore⟩ := Prod.mk.inj hserve
    cases hok
    exact ⟨newWorkflow r s.nextRunId, workflow?_of_stored hstored (by rw [← hstore]), rfl, rfl⟩
  | some w =>
    rw [serve_start_of_stored hstored, startAgain] at hserve
    obtain ⟨hok, hstore⟩ := Prod.mk.inj hserve
    split at hok
    · next hsame =>
      cases hok
      exact ⟨w, hstore ▸ hstored, hsame, rfl⟩
    · cases hok

/-- **What a start was answered is so at any later time:** its workflow is
stored, under its request and with the run that it was told. -/
theorem stored_of_seen {events : List StoreEvent} {answer : Answer}
    (h : (.start r, .ok answer) ∈ s.seen StoreEvent.answered? events) :
    ∃ w, (s.afterAll events).workflow? r.workflowId = some w ∧ w.requestId = r.requestId ∧
      answer = .start ⟨w.runId⟩ := by
  induction events generalizing s with
  | nil => cases h
  | cons e events ih =>
    rcases List.mem_append.1 h with h | h
    · obtain ⟨w, hw, hrequest, rfl⟩ := stored_of_answered (Option.mem_toList.1 h)
      obtain ⟨w', hw', hlater⟩ := continues_afterAll _ events _ _ hw
      exact ⟨w', hw', hlater.requestId.trans hrequest, by rw [hlater.runId]⟩
    · exact ih h

end Store

/-- A well recorded history has one event of a start. -/
theorem Workflow.WellRecorded.countP_started {w : Workflow} (h : w.WellRecorded) :
    w.history.countP (fun event => event.eventType = startedType) = 1 := by
  obtain ⟨first, rest, hhistory, hfirst, hrest⟩ := h.begins
  rw [hhistory, List.countP_cons_of_pos (by simpa using hfirst),
    List.countP_eq_zero.2 (by simpa using hrest)]

/-! ## Calls that start a workflow -/

namespace Store

/-- A failure of a request explains itself: a start is told that its
workflow exists only by an injected failure, or because another request
has started the workflow. -/
def Explains (injected : List Status) (s : Store) : Request → Status → Prop
  | .start r, status => status.code = .alreadyExists → status ∈ injected ∨
      ∃ w, s.workflow? r.workflowId = some w ∧ w.requestId ≠ r.requestId
  | _, _ => True

variable {injected more : List Status} {s s' : Store} {request : Request} {status : Status}

theorem Explains.of_code (h : status.code ≠ .alreadyExists) :
    s.Explains injected request status := by
  cases request with
  | start r => exact fun hcode => absurd hcode h
  | _ => trivial

/-- What is explained stays explained. -/
theorem Explains.mono (h : s.Explains injected request status) (hlater : s.Continues s')
    (hmore : injected ⊆ more) : s'.Explains more request status := by
  cases request with
  | start r =>
    intro hcode
    obtain hinjected | ⟨w, hw, hother⟩ := h hcode
    · exact .inl (hmore hinjected)
    · obtain ⟨w', hw', hcontinues⟩ := hlater _ w hw
      exact .inr ⟨w', hw', hcontinues.requestId ▸ hother⟩
  | _ => trivial

/-- A later state of the service, to which no start failures were added but
some. -/
structure Follows (injected : List Status) (s s' : Store) : Prop where
  continues : s.Continues s'
  failures : s'.failures.get .startWorkflow ⊆ injected

theorem Follows.trans {s'' : Store} (h : s.Follows injected s') (h' : s'.Follows injected s'') :
    s.Follows injected s'' :=
  ⟨h.continues.trans h'.continues, h'.failures⟩

/-- Settling a request uses up at most one injected failure. -/
theorem settle_failures_subset (request : Request) (s : Store) (m : Method) :
    (s.settle request).2.failures.get m ⊆ s.failures.get m := by
  unfold settle
  split
  · next status rest hfailures =>
    by_cases hm : m = request.method
    · rw [hm, PerMethod.get_set, hfailures]
      exact List.subset_cons_self status rest
    · rw [PerMethod.get_set_of_ne _ hm]
      exact List.Subset.refl _
  · rw [show (serve request s).2.failures = s.failures from
      congrArg Prod.fst (serve_arranged request s)]
    exact List.Subset.refl _

theorem follows_settle (h : s.failures.get .startWorkflow ⊆ injected) (request : Request) :
    s.Follows injected (s.settle request).2 :=
  ⟨settle_continues request s,
    List.Subset.trans (settle_failures_subset request s .startWorkflow) h⟩

/-- **A request that is refused explains itself.** -/
theorem explains_of_settle (h : s.failures.get .startWorkflow ⊆ injected)
    (hrefused : (s.settle request).1 = .error status) :
    (s.settle request).2.Explains injected request status := by
  suffices hnow : s.Explains injected request status from
    hnow.mono (settle_continues request s) (List.Subset.refl injected)
  cases request with
  | start r =>
    intro hcode
    obtain hinjected | hserved := refused_cases hrefused
    · exact .inl (h hinjected)
    · cases hstored : s.workflow? r.workflowId with
      | none =>
        rw [serve_start_of_new hstored] at hserved
        cases hserved
      | some w =>
        rw [serve_start_of_stored hstored, startAgain] at hserved
        split at hserved
        · cases hserved
        · next hother => exact .inr ⟨w, rfl, hother⟩
  | _ => trivial

end Store

/-- The last status that a result tells. -/
def CallResult.status? : CallResult → Option Status
  | .failed e => e.status
  | .answered _ | .crashed _ | .unfinished => none

namespace Call

variable {injected : List Status} {call : Call} {s world : Store}

/-- The store that a call has come to since `s` explains its last
failure. -/
def Explained (injected : List Status) (call : Call) (s : Store) (last : Option Status)
    (world : Store) : Prop :=
  s.Follows injected world ∧ ∀ status ∈ last, world.Explains injected call.request status

/-- What has been explained stays explained. -/
theorem Explained.follow {last : Option Status} {after : Store}
    (h : call.Explained injected s last world) (hafter : world.Follows injected after) :
    call.Explained injected s last after :=
  ⟨h.1.trans hafter, fun status hstatus =>
    (h.2 status hstatus).mono hafter.continues (List.Subset.refl injected)⟩

theorem Explained.forget {last : Option Status} (h : call.Explained injected s last world) :
    call.Explained injected s none world :=
  ⟨h.1, nofun⟩

variable (call : Call) (now : Instant)

/-- An attempt that is looked at explains its failure, if it fails. -/
theorem look_explained (a : CallAttempt Instant) {last : Option Status}
    (h : call.Explained injected s last world) :
    match call.look Store.stub now a world with
    | (.waiting, after) => call.Explained injected s last after
    | (.finished (.error status), after) => call.Explained injected s (some status) after
    | (.finished (.ok _), after) => call.Explained injected s none after
    | (.crashed _, _) => False := by
  unfold look
  by_cases hreached : a.inner.reached now = true
  · have hlook : Store.stub.look call.request now a.inner world =
        (some (world.settle call.request).1, (world.settle call.request).2) := by
      simp only [Store.stub, if_pos hreached]
    have hafter := h.forget.follow (follows_settle h.1.failures call.request)
    rw [hlook]
    cases hanswer : (world.settle call.request).1 with
    | ok answer => exact hafter
    | error status =>
      refine ⟨hafter.1, fun status' hsame => ?_⟩
      cases hsame
      exact explains_of_settle h.1.failures hanswer
  · -- an attempt that is cut short fails by its timeout, which refuses nothing
    have hlook : Store.stub.look call.request now a.inner world = (none, world) := by
      simp only [Store.stub, if_neg hreached]
    rw [hlook]
    by_cases hcut : a.cutAt.reached now = true
    · simp only [if_pos hcut]
      refine ⟨h.1, fun status hsame => ?_⟩
      cases hsame
      exact .of_code (show Code.deadlineExceeded ≠ .alreadyExists by decide)
    · simp only [if_neg hcut]
      exact h

/-- While the run of a call goes on, its last failure is explained. -/
abbrev ExplainedRun (injected : List Status) (call : Call) (s : Store) (_ : List RetryEvent)
    (r : Run (CallAttempt Instant) Status) (world : Store) : Prop :=
  call.Explained injected s r.lastError world

/-- The failure that the run of a call ends with is explained. -/
abbrev ExplainedEnd (injected : List Status) (call : Call) (s : Store) (_ : List RetryEvent)
    (world : Store) (ending : Ending Status Answer) : Prop :=
  call.Explained injected s (Client.resultOf call.request.method ending).status? world

variable (draws : Draws) (past : List RetryEvent) (r : Run (CallAttempt Instant) Status)

theorem launch_keeps_explained (i : Invocation) (h : call.Explained injected s r.lastError world) :
    (r.launch (call.work Store.stub) now i world).Keeps (call.ExplainedRun injected s)
      (call.ExplainedEnd injected s) past :=
  h.follow ⟨.of_workflows rfl, h.1.failures⟩

/-- The error of a run that stops tells the failure that it stops at. -/
theorem lastError_toError (reason : Stop) (status : Status) (attempts : Nat) (elapsed : Duration) :
    (reason.toError status attempts elapsed).lastError = some status := by
  cases reason <;> rfl

/-- **One transition of the run of a call** keeps its last failure
explained. -/
theorem step_keeps_explained (h : call.Explained injected s r.lastError world) :
    (r.step (call.work Store.stub) draws now world).Keeps (call.ExplainedRun injected s)
      (call.ExplainedEnd injected s) past := by
  obtain ⟨options, phase, lastError, attempts⟩ := r
  cases phase with
  | idle => exact call.launch_keeps_explained now past _ _ h
  | attempting a i =>
    have hlook := call.look_explained now a h
    simp only [Run.step, work]
    rcases hprogress : call.look Store.stub now a world with
      ⟨_ | (status | answer) | message, after⟩ <;> simp only [hprogress] at hlook ⊢
    · exact hlook
    · unfold Run.afterFailedAttempt
      cases afterFailure options.policy i status now (draws i.attempt) with
      | retry delay => exact hlook
      | stop reason =>
        have hlast := lastError_toError reason status i.attempt (i.elapsed now)
        exact ⟨hlook.1, fun status' hsame => hlook.2 status' (hlast ▸ hsame)⟩
      | overflow reason => exact hlook.forget
    · exact hlook
  | backingOff timer i =>
    by_cases hreached : timer.reached now = true
    · simp only [Run.step, if_pos hreached]
      exact call.launch_keeps_explained now past _ _ h
    · simp only [Run.step, if_neg hreached]
      exact h
  | settled => exact h.forget

/-- **A poll of a call,** its token cancelled or not, leaves its last
failure explained. -/
theorem poll_explained (cancelled : Bool) (hinjected : s.failures.get .startWorkflow ⊆ injected)
    (h : ∀ status ∈ r.lastError, s.Explains injected call.request status) :
    (r.poll (call.work Store.stub) draws now cancelled s).Leaves (call.ExplainedRun injected s)
      (call.ExplainedEnd injected s) [] :=
  -- a run that is cancelled ends with the last failure that it has seen
  Run.poll_leaves (fun past r _ h => call.step_keeps_explained now draws past r h)
    (fun _ _ _ _ h _ => h) ⟨⟨.of_workflows rfl, hinjected⟩, h⟩

end Call

/-- The start failures that an event injects. -/
def ServiceEvent.injected : ServiceEvent → List Status
  | .failNext .startWorkflow statuses => statuses
  | _ => []

namespace CallTask

/-- The last status that a call has seen, or has ended with. -/
def status? {τ : Type} : CallTask τ → Option Status
  | rejected _ => none
  | underWay _ _ _ run => run.lastError
  | ended _ _ result => result.status?

@[simp]
theorem status?_cancel {τ : Type} (task : CallTask τ) : task.cancel.status? = task.status? := by
  cases task <;> rfl

/-- The service explains the last failure of a call. -/
def Explained (injected : List Status) (s : Store) (task : CallTask Instant) : Prop :=
  ∀ request ∈ task.request?, ∀ status ∈ task.status?, s.Explains injected request status

variable {injected more : List Status} {s s' : Store} {task : CallTask Instant}

theorem Explained.mono (h : task.Explained injected s) (hlater : s.Continues s')
    (hmore : injected ⊆ more) : task.Explained more s' :=
  fun request hrequest status hstatus => (h request hrequest status hstatus).mono hlater hmore

end CallTask

namespace Traffic

variable {injected more : List Status} {t t' : Traffic Store Instant}

/-- The service explains the last failure of each call, and no start
failures wait that were not injected. -/
structure Explained (injected : List Status) (t : Traffic Store Instant) : Prop where
  failures : t.world.failures.get .startWorkflow ⊆ injected
  tasks : ∀ task ∈ t.tasks, task.Explained injected t.world

theorem explained_opened (s : Store) (now : Instant) :
    (opened now s).Explained (s.failures.get .startWorkflow) :=
  ⟨List.Subset.refl _, fun _ h => absurd h List.not_mem_nil⟩

/-- Calls are explained if each one was before or is explained now. -/
theorem Explained.of_tasks (h : t.Explained injected)
    (hfollows : t.world.Follows injected t'.world)
    (htasks : ∀ task ∈ t'.tasks, task ∈ t.tasks ∨ task.Explained injected t'.world) :
    t'.Explained injected :=
  ⟨hfollows.failures, fun task htask => (htasks task htask).elim
    (fun hold => (h.tasks task hold).mono hfollows.continues (List.Subset.refl injected)) id⟩

theorem Explained.mono (h : t.Explained injected) (hmore : injected ⊆ more) : t.Explained more :=
  ⟨List.Subset.trans h.failures hmore,
    fun task htask => (h.tasks task htask).mono (.of_workflows rfl) hmore⟩

/-- **A call that is polled** is explained by the service that it leaves. -/
theorem pollTask_explained (client : Client) (draws : Draws) (now begunAt : Instant) (call : Call)
    (cancelled : Bool) (run : Run (CallAttempt Instant) Status) {s : Store}
    (hinjected : s.failures.get .startWorkflow ⊆ injected)
    (h : ∀ status ∈ run.lastError, s.Explains injected call.request status) :
    let (task, s', _) := pollTask client Store.stub draws now call begunAt cancelled run s
    s.Follows injected s' ∧ task.Explained injected s' := by
  have hleaves := call.poll_explained now draws run cancelled hinjected h
  simp only [pollTask]
  rcases hresult : (run.poll (call.work Store.stub) draws now cancelled s).result with
    _ | (e | answer) | message <;>
    simp only [Turn.Leaves, hresult] at hleaves <;>
    refine ⟨hleaves.1, fun request hrequest status hstatus => ?_⟩ <;>
    cases hrequest <;>
    exact hleaves.2 status hstatus

theorem pollAt_explained (client : Client) (draws : Draws) (i : Nat) (h : t.Explained injected) :
    (t.pollAt client Store.stub draws i).1.Explained injected := by
  unfold pollAt
  split
  · next call begunAt cancelled run htask =>
    obtain ⟨hfollows, hexplained⟩ := pollTask_explained client draws t.now begunAt call cancelled
      run h.failures fun status hstatus =>
        h.tasks _ (List.mem_of_getElem? htask) call.request rfl status hstatus
    refine h.of_tasks hfollows fun task htask => ?_
    obtain hold | rfl := List.mem_or_eq_of_mem_set htask
    · exact .inl hold
    · exact .inr hexplained
  · exact h

theorem issue_explained (client : Client) (draws : Draws) (request : Request) (o : CallOptions)
    (cancelled : Bool) (h : t.Explained injected) :
    (t.issue client Store.stub draws request o cancelled).1.Explained injected := by
  unfold issue
  cases client.prepare request o with
  | error e =>
    refine h.of_tasks ⟨.of_workflows rfl, h.failures⟩ fun task htask => ?_
    obtain hold | hnew := List.mem_append.1 htask
    · exact .inl hold
    · rw [List.mem_singleton.1 hnew]
      exact .inr nofun
  | ok options =>
    obtain ⟨hfollows, hexplained⟩ := pollTask_explained client draws t.now t.now
      (client.callOf request options t.now) cancelled (.new options) h.failures nofun
    refine h.of_tasks hfollows fun task htask => ?_
    obtain hold | hnew := List.mem_append.1 htask
    · exact .inl hold
    · rw [List.mem_singleton.1 hnew]
      exact .inr hexplained

/-- **Whatever happens, the last failure of each call is explained,** by the
failures that were injected before and those that are injected now. -/
theorem play_explained (h : t.Explained injected) (e : ServiceEvent) :
    (t.play e).Explained (injected ++ e.injected) := by
  cases e with
  | failNext m statuses =>
    have hmore : injected ⊆ injected ++ (ServiceEvent.failNext m statuses).injected :=
      List.subset_append_left _ _
    refine (h.mono hmore).of_tasks ⟨.of_workflows rfl, ?_⟩ fun task htask => .inl htask
    simp only [play, failNext]
    by_cases hm : m = .startWorkflow
    · subst hm
      rw [PerMethod.get_set]
      exact List.append_subset.2 ⟨List.Subset.trans h.failures hmore, List.subset_append_right _ _⟩
    · rw [PerMethod.get_set_of_ne _ (Ne.symm hm)]
      exact List.Subset.trans h.failures hmore
  | setLatency m latency =>
    exact (h.mono (List.subset_append_left _ _)).of_tasks ⟨.of_workflows rfl,
      List.Subset.trans h.failures (List.subset_append_left _ _)⟩ fun task htask => .inl htask
  | act client draws action =>
    refine Explained.mono ?_ (List.subset_append_left _ _)
    cases action with
    | issue request o cancelled => exact issue_explained client draws request o cancelled h
    | poll i => exact pollAt_explained client draws i h
    | wait d => exact ⟨h.failures, h.tasks⟩
    | cancel i =>
      refine ⟨h.failures, fun task htask => ?_⟩
      obtain ⟨j, hj, rfl⟩ := List.getElem_of_mem htask
      simp only [play, act, List.length_modify] at hj ⊢
      have hold := h.tasks _ (List.getElem_mem hj)
      rw [List.getElem_modify]
      split
      · simpa [CallTask.Explained] using hold
      · exact hold

theorem playAll_explained (h : t.Explained injected) (events : List ServiceEvent) :
    (t.playAll events).Explained (injected ++ events.flatMap ServiceEvent.injected) := by
  induction events generalizing injected t with
  | nil => simpa [playAll] using h
  | cons e events ih =>
    have hrest := ih (play_explained h e)
    rwa [List.append_assoc] at hrest

end Traffic

open Store in
/-- **A workflow is started once,** however often its start is sent and
whatever happens meanwhile. Starts of one workflow that were answered with a
run were one request, and got one run. A start of a stored workflow changes
nothing; it is answered with the run if it is the request that has started
it, and refused otherwise, unless it fails by injection. So what was started
is what is stored, each workflow once, with one event of its start and one
waiting task at most. And a call that ends with the refusal of a stored
workflow, however it was retried, was not refused for what it had started
itself: the refusal was injected, or another request has started the
workflow. -/
theorem start_idempotent (events : List StoreEvent) :
    let s := Store.new.afterAll events
    let answers := Store.new.seen StoreEvent.answered? events
    let started := (Store.new.seen started? events).map StartRequest.workflowId
    (∀ (r q : StartRequest) (a b : Answer), (.start r, .ok a) ∈ answers →
      (.start q, .ok b) ∈ answers → r.workflowId = q.workflowId →
        r.requestId = q.requestId ∧ ∃ runId, a = .start ⟨runId⟩ ∧ b = .start ⟨runId⟩) ∧
      (∀ (r : StartRequest) (w : Workflow) (e : StoreEvent),
        s.workflow? r.workflowId = some w → e.IsOf (.start r) → s.Alike (e.apply s) ∧
          ∀ (q : Request) (a : Except Status Answer), e.answered? s = some (q, a) →
            (∃ status ∈ s.failures.get .startWorkflow, a = .error status) ∨
              a = startAgain w r) ∧
      (∀ (r : StartRequest) (e : StoreEvent), e.IsOf (.start r) →
        (s.Alike (e.apply s) ∧ s.started? e = none) ∨
          (s.Starts (e.apply s) r ∧ s.started? e = some r)) ∧
      (s.workflows.map Prod.fst = started ∧ ∀ id, started.count id ≤ 1 ∧
        (s.pending.map PendingTask.workflowId).count id ≤ 1 ∧
        ∀ w, s.workflow? id = some w →
          w.history.countP (fun event => event.eventType = Workflow.startedType) = 1) ∧
      ∀ (now : Instant) (plays : List ServiceEvent),
        let t := (Traffic.opened now s).playAll plays
        ∀ (call : Call) (run : Run (CallAttempt Instant) Status) (e : ClientError)
          (r : StartRequest) (status : Status), .ended call run (.failed e) ∈ t.tasks →
          call.request = .start r → e.status = some status → status.code = .alreadyExists →
            status ∈ s.failures.get .startWorkflow ++ plays.flatMap ServiceEvent.injected ∨
              ∃ w, t.world.workflow? r.workflowId = some w ∧ w.requestId ≠ r.requestId := by
  intro s answers started
  have hsound : s.Sound := sound_new.afterAll events
  have hids : s.workflows.map Prod.fst = started := ids_afterAll sound_new events
  refine ⟨?_, ?_, fun r e => start_cases, ⟨hids, fun id => ⟨?_, ?_, ?_⟩⟩, ?_⟩
  · intro r q a b hr hq hid
    obtain ⟨w, hw, hrequest, rfl⟩ := stored_of_seen hr
    obtain ⟨w', hw', hrequest', rfl⟩ := stored_of_seen hq
    obtain rfl : w = w' := Option.some.inj (hw.symm.trans (hid ▸ hw'))
    exact ⟨hrequest.symm.trans hrequest', w.runId, rfl, rfl⟩
  · exact fun r w e hw he => ⟨alike_of_stored hw he, fun q a => answered_of_stored hw he⟩
  · exact List.nodup_iff_count_le_one.1 (hids ▸ hsound.ids) id
  · exact List.nodup_iff_count_le_one.1 hsound.once id
  · exact fun w hw => (hsound.recorded _ (mem_of_workflow? hw)).countP_started
  · intro now plays t call run e r status htask hrequest hstatus hcode
    have hexplains := (Traffic.playAll_explained (Traffic.explained_opened s now) plays).tasks _
      htask call.request rfl status hstatus
    rw [hrequest] at hexplains
    exact hexplains hcode

theorem Traffic.issued_opened (s : Store) (now : Instant) : Issued [] (opened now s).tasks := by
  refine ⟨rfl, fun i task r htask => ?_⟩
  cases htask

/-- A call that has ended and tells a status has failed with it. -/
theorem CallTask.exists_failed {τ : Type} {task : CallTask τ} {status : Status}
    (hended : task.isUnderWay = false) (hstatus : task.status? = some status) :
    ∃ call run e, task = .ended call run (.failed e) ∧ e.status = some status := by
  cases task with
  | rejected e => cases hstatus
  | underWay call begunAt cancelled run => cases hended
  | ended call run result =>
    cases result with
    | failed e => exact ⟨call, run, e, rfl, hstatus⟩
    | answered answer => cases hstatus
    | crashed message => cases hstatus
    | unfinished => cases hstatus

/-- A start of an order by one of its clients. -/
def orderStart (requestId : String) : StartRequest :=
  .new "default" "order-1" "OrderWorkflow" "orders" requestId

/-- The order is started, its task is polled, and its start comes again. -/
def orderEvents : List StoreEvent :=
  [.settle (.start (orderStart "r-1")), .settle (.poll ⟨"default", "orders", ""⟩),
    .settle (.start (orderStart "r-1"))]

/-- A client that makes two attempts starts the order by another request.
The first attempt fails by injection. -/
def rivalPlays : List ServiceEvent :=
  let client : Client :=
    ⟨.standard "worker", { RetryPolicy.draft with maximumAttempts := 2, jitter := .zero }⟩
  [.failNext .startWorkflow [.new .unavailable "busy"],
    .act client .still (.issue (.start (orderStart "r-9")) .none false),
    .act client .still (.wait (.ofMillis 100)), .act client .still (.poll 0)]

/-- The call of the client and the service that it leaves. -/
def rivalTraffic : Traffic Store Instant :=
  (Traffic.opened ⟨0⟩ (Store.new.afterAll orderEvents)).playAll rivalPlays

/-- The refusal of a start of the order. -/
def orderRefusal : Status := .new .alreadyExists "workflow order-1 already started"

/-- The call has been refused. -/
theorem rivalTraffic_refused : ∃ call run e, rivalTraffic.tasks = [.ended call run (.failed e)] ∧
    call.request = .start (orderStart "r-9") ∧ e.status = some orderRefusal := by
  obtain ⟨task, htasks⟩ : ∃ task, rivalTraffic.tasks = [task] :=
    List.length_eq_one_iff.1 (by decide +kernel)
  have hended : rivalTraffic.tasks.map CallTask.isUnderWay = [false] := by decide +kernel
  have hrefused : rivalTraffic.tasks.map CallTask.status? = [some orderRefusal] := by
    decide +kernel
  rw [htasks, List.map_singleton, List.singleton_inj] at hended hrefused
  obtain ⟨call, run, e, rfl, hstatus⟩ := CallTask.exists_failed hended hrefused
  have hissued := Traffic.playAll_issued
    (Traffic.issued_opened (Store.new.afterAll orderEvents) ⟨0⟩) rivalPlays
  have hat := hissued.request 0 (.ended call run (.failed e)) call.request
    (by rw [← rivalTraffic, htasks]; rfl) rfl
  exact ⟨call, run, e, htasks, (Option.some.inj hat).symm, hstatus⟩

open Store in
/-- An order is started twice by one request, and its task is polled. A
client that then starts it by another request is refused. -/
theorem start_idempotent_order :
    let s := Store.new.afterAll orderEvents
    (Store.new.seen started? orderEvents).length = 1 ∧ s.waitingFor "orders" = [] ∧
      s.Alike (StoreEvent.apply s (.settle (.start (orderStart "r-9")))) ∧
      ∃ call run e, .ended call run (.failed e) ∈ rivalTraffic.tasks ∧
        call.request = .start (orderStart "r-9") ∧ e.status = some orderRefusal ∧
        rivalTraffic.world.calls.startWorkflow = 2 ∧
        ∃ w, rivalTraffic.world.workflow? "order-1" = some w ∧ w.requestId ≠ "r-9" := by
  intro s
  obtain ⟨-, hstored, -, -, hcall⟩ := start_idempotent orderEvents
  obtain ⟨call, run, e, htasks, hrequest, hstatus⟩ := rivalTraffic_refused
  have hmem : .ended call run (.failed e) ∈ rivalTraffic.tasks :=
    htasks ▸ List.mem_singleton_self _
  have hblamed := hcall ⟨0⟩ rivalPlays call run e (orderStart "r-9") orderRefusal hmem hrequest
    hstatus rfl
  exact ⟨by decide +kernel, by decide +kernel,
    (hstored (orderStart "r-9") _ (.settle (.start (orderStart "r-9"))) rfl .settle).1, call, run,
    e, hmem, hrequest, hstatus, by decide +kernel, hblamed.resolve_left (by decide +kernel)⟩

end ResilientCalls
