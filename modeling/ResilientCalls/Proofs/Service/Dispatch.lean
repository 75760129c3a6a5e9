import ResilientCalls.Proofs.Service.Answering
/-!
# Tasks are dispatched in the order of their starts

All queues share one list of waiting tasks, and a poll takes the first task
of its queue out of the middle of it. What an event can do to this list and
to the workflows is said once (`StoreEvent.does`): it starts a workflow, or
hands out a task, or does neither. So what a queue has handed out, followed
by what still waits in it, is at any time what was started on it
(`Store.handedOut_append_waitingFor`).
-/

namespace ResilientCalls

namespace Store

/-- The answer that hands out the task of a workflow. -/
def taskAnswer (id : String) (w : Workflow) : PollAnswer :=
  ⟨taskToken id w, some ⟨id, some w.runId⟩, w.workflowType, w.history, 1⟩

/-- An answer with a task is not empty: its token has a slash at least. -/
theorem isEmpty_taskAnswer (id : String) (w : Workflow) : (taskAnswer id w).isEmpty = false := by
  have hne : taskToken id w ≠ "" := by
    intro heq
    have hchars := congrArg String.toList heq
    simp [taskToken] at hchars
  simpa [PollAnswer.isEmpty, taskAnswer] using hne

/-- The workflows whose tasks wait in a queue, the oldest task first. -/
def waitingFor (s : Store) (queue : String) : List String :=
  (s.pending.filter fun task => task.taskQueue = queue).map PendingTask.workflowId

/-- The request that an event starts a new workflow for. -/
def started? (s : Store) (e : StoreEvent) : Option StartRequest :=
  match e.answered? s with
  | some (.start r, .ok _) => if (s.workflow? r.workflowId).isNone then some r else none
  | _ => none

/-- The workflow that a poll of a queue hands out with its answer. -/
def handedOut? (queue : String) (s : Store) (e : StoreEvent) : Option String :=
  match e.answered? s with
  | some (.poll r, .ok (.poll a)) =>
    if r.taskQueue = queue ∧ a.isEmpty = false then a.execution.map Execution.workflowId else none
  | _ => none

/-- The workflows that were started on a queue, by the requests that did. -/
def startedOn (queue : String) (started : List StartRequest) : List String :=
  (started.filter fun r => r.taskQueue = queue).map StartRequest.workflowId

/-! ## Starts -/

/-- What a start gets for an answer when its workflow is stored. -/
def startAgain (w : Workflow) (r : StartRequest) : Except Status Answer :=
  if w.requestId = r.requestId then .ok (.start ⟨w.runId⟩)
  else .error (.new .alreadyExists ("workflow " ++ r.workflowId ++ " already started"))

variable {s s' : Store} {r : StartRequest} {w : Workflow}

/-- **A start of a stored workflow changes nothing.** -/
theorem serve_start_of_stored (h : s.workflow? r.workflowId = some w) :
    serve (.start r) s = (startAgain w r, s) := by
  simp only [serve, start, h, startAgain]
  split <;> rfl

/-- A start of a new workflow stores it and makes its task wait. -/
theorem serve_start_of_new (h : s.workflow? r.workflowId = none) :
    serve (.start r) s = (.ok (.start ⟨s.nextRunId⟩),
      { s with
        workflows := s.workflows ++ [(r.workflowId, newWorkflow r s.nextRunId)]
        pending := s.pending ++ [⟨r.taskQueue, r.workflowId⟩] }) := by
  simp only [serve, start, h]
  rfl

/-- A new workflow is found where it was stored. -/
theorem workflow?_of_stored {id : String} (h : s.workflow? id = none)
    (hworkflows : s'.workflows = s.workflows ++ [(id, w)]) : s'.workflow? id = some w := by
  rw [workflow?, hworkflows, List.lookup_append, show s.workflows.lookup id = none from h,
    Option.none_or, List.lookup_cons_self]

end Store

open Store

/-! ## What an event can do -/

/-- What an event does to the workflows and the waiting tasks. -/
inductive StoreEvent.Does (s : Store) (e : StoreEvent) : Prop
  | starts (r : StartRequest) (hnew : s.workflow? r.workflowId = none)
      (hanswer : e.answered? s = some (.start r, .ok (.start ⟨s.nextRunId⟩)))
      (hworkflows : (e.apply s).workflows =
        s.workflows ++ [(r.workflowId, newWorkflow r s.nextRunId)])
      (hpending : (e.apply s).pending = s.pending ++ [⟨r.taskQueue, r.workflowId⟩]) : Does s e
  | handsOut (r : PollRequest) (task : PendingTask) (others : List PendingTask) (w : Workflow)
      (htaken : takeTask? r.taskQueue s.pending = some (task, others))
      (hstored : s.workflow? task.workflowId = some w)
      (hanswer : e.answered? s = some (.poll r, .ok (.poll (taskAnswer task.workflowId w))))
      (hworkflows : (e.apply s).workflows = s.workflows) (hpending : (e.apply s).pending = others) :
      Does s e
  | neither (hids : (e.apply s).workflows.map Prod.fst = s.workflows.map Prod.fst)
      (hpending : (e.apply s).pending = s.pending) (hold : s.started? e = none)
      (hpoll : ∀ r a, e.answered? s = some (.poll r, .ok a) →
        a = .poll .empty ∧ takeTask? r.taskQueue s.pending = none) : Does s e

namespace StoreEvent

variable {s : Store} {e : StoreEvent}

/-- An event that answers no start starts nothing. -/
theorem started?_eq_none (h : ∀ r a, e.answered? s ≠ some (.start r, .ok a)) :
    s.started? e = none := by
  unfold started?
  split
  · next r a hanswer => exact absurd hanswer (h r a)
  · rfl

/-- An event that leaves the store alike and answers no start and no poll
does neither. -/
theorem does_of_alike (halike : s.Alike (e.apply s))
    (hstart : ∀ r a, e.answered? s ≠ some (.start r, .ok a))
    (hpoll : ∀ r a, e.answered? s ≠ some (.poll r, .ok a)) : e.Does s :=
  .neither (by rw [halike.workflows]) halike.pending.symm (started?_eq_none hstart)
    fun r a hanswer => absurd hanswer (hpoll r a)

theorem ids_appendEvent (s : Store) (id eventType : String) (attributes : Node) :
    (s.appendEvent id eventType attributes).2.workflows.map Prod.fst = s.workflows.map Prod.fst ∧
      (s.appendEvent id eventType attributes).2.pending = s.pending := by
  unfold appendEvent
  split
  · exact ⟨rfl, rfl⟩
  · exact ⟨ids_updateWorkflow s id _, rfl⟩

/-- A request that only records an event in a history does neither. -/
theorem does_of_appendEvent {α : Type} {r : Request} {answer : Answer} {b : α}
    {id eventType : String} {attributes : Node}
    (hanswer : e.answered? s = some (r, .ok answer))
    (hserve : (Store.serve r s).2 = (answering b (s.appendEvent id eventType attributes)).2)
    (hstart : ∀ q, r ≠ .start q) (hpoll : ∀ q, r ≠ .poll q) : e.Does s := by
  have hstore : e.apply s = (s.appendEvent id eventType attributes).2 := by
    rw [← answering_snd b, ← hserve, serve_of_answered hanswer]
  obtain ⟨hids, hpending⟩ := ids_appendEvent s id eventType attributes
  have hother {q : Request} {a : Except Status Answer}
      (h : e.answered? s = some (q, a)) : r = q :=
    (Prod.mk.inj (Option.some.inj (hanswer.symm.trans h))).1
  exact .neither (hstore ▸ hids) (hstore ▸ hpending)
    (started?_eq_none fun q a h => hstart q (hother h)) fun q a h => absurd (hother h) (hpoll q)

theorem does_of_start {r : StartRequest} {answer : Answer}
    (hanswer : e.answered? s = some (.start r, .ok answer)) : e.Does s := by
  have hserve := serve_of_answered hanswer
  cases hstored : s.workflow? r.workflowId with
  | none =>
    rw [serve_start_of_new hstored] at hserve
    obtain ⟨hok, hstore⟩ := Prod.mk.inj hserve
    cases hok
    exact .starts r hstored hanswer (by rw [← hstore]) (by rw [← hstore])
  | some w =>
    rw [serve_start_of_stored hstored] at hserve
    have hsame : e.apply s = s := (Prod.mk.inj hserve).2.symm
    refine .neither (by rw [hsame]) (by rw [hsame]) (by simp [started?, hanswer, hstored]) ?_
    intro q a hother
    rw [hanswer] at hother
    cases hother

theorem does_of_poll (h : s.Sound) {r : PollRequest} {answer : Answer}
    (hanswer : e.answered? s = some (.poll r, .ok answer)) : e.Does s := by
  have hserve := serve_of_answered hanswer
  simp only [Store.serve] at hserve
  cases htaken : takeTask? r.taskQueue s.pending with
  | none =>
    have hempty : Store.poll r s = (.ok .empty, s) := by rw [Store.poll, htaken]
    rw [hempty] at hserve
    obtain ⟨hok, hstore⟩ := Prod.mk.inj hserve
    refine .neither (by rw [← hstore]) (by rw [← hstore]) (by simp [started?, hanswer]) ?_
    · intro q a hother
      rw [hanswer] at hother
      cases hother
      cases hok
      exact ⟨rfl, htaken⟩
  | some found =>
    obtain ⟨task, others⟩ := found
    obtain ⟨w, hstored, -, hpoll⟩ := h.poll_of_takeTask? htaken
    rw [hpoll] at hserve
    obtain ⟨hok, hstore⟩ := Prod.mk.inj hserve
    cases hok
    exact .handsOut r task others w htaken hstored hanswer (by rw [← hstore]) (by rw [← hstore])

/-- **What an event can do to a sound service:** start a workflow, hand out
a task, or neither. -/
theorem does (h : s.Sound) (e : StoreEvent) : e.Does s := by
  rcases hanswer : e.answered? s with _ | ⟨r, status | answer⟩
  · exact does_of_alike (alike_of_unanswered hanswer) (by simp [hanswer]) (by simp [hanswer])
  · exact does_of_alike (alike_of_refused hanswer) (by simp [hanswer]) (by simp [hanswer])
  · have hserve := serve_of_answered hanswer
    cases r with
    | describe q =>
      have hsame : e.apply s = s := by
        simp only [Store.serve, Store.describe] at hserve
        split at hserve <;> exact (Prod.mk.inj hserve).2.symm
      exact does_of_alike (hsame.symm ▸ Alike.refl s) (by simp [hanswer]) (by simp [hanswer])
    | start q => exact does_of_start hanswer
    | signal q =>
      exact does_of_appendEvent (b := (⟨⟩ : SignalAnswer)) hanswer rfl (by simp) (by simp)
    | history q =>
      have hsame : e.apply s = s := by
        simp only [Store.serve, Store.readHistory] at hserve
        split at hserve <;> exact (Prod.mk.inj hserve).2.symm
      exact does_of_alike (hsame.symm ▸ Alike.refl s) (by simp [hanswer]) (by simp [hanswer])
    | poll q => exact does_of_poll h hanswer
    | complete q =>
      cases htoken : tokenWorkflow? q.taskToken with
      | none =>
        simp only [Store.serve, Store.complete, htoken] at hserve
        cases (Prod.mk.inj hserve).1
      | some id =>
        have hrecorded : (Store.serve (.complete q) s).2 =
            (answering (⟨⟩ : CompleteAnswer) (s.appendEvent id "WorkflowTaskCompleted"
              (.mapping [("commands", .integer q.commands.length),
                ("identity", .text q.identity)]))).2 := by
          simp only [Store.serve, Store.complete, htoken]
          rfl
        exact does_of_appendEvent hanswer hrecorded (by simp) (by simp)

end StoreEvent

/-! ## Queues -/

namespace Store

variable {s : Store} {e : StoreEvent} {queue : String}

/-- No task of a queue is taken exactly when nothing waits in it. -/
theorem takeTask?_eq_none_iff_waitingFor :
    takeTask? queue s.pending = none ↔ s.waitingFor queue = [] := by
  rw [takeTask?_eq_none_iff, waitingFor, List.map_eq_nil_iff, List.filter_eq_nil_iff]
  simp

/-- **A task that is taken has waited longest in its queue,** and other
queues are left as they are. -/
theorem waitingFor_of_takeTask? (queue : String) {own : String} {task : PendingTask}
    {others : List PendingTask} (h : takeTask? own s.pending = some (task, others))
    {s' : Store} (hpending : s'.pending = others) :
    if own = queue then s.waitingFor queue = task.workflowId :: s'.waitingFor queue
    else s'.waitingFor queue = s.waitingFor queue := by
  obtain ⟨rfl, before, after, hall, hothers, hbefore⟩ := eq_append_of_takeTask? h
  simp only [waitingFor, hpending, hall, hothers, List.filter_append, List.filter_cons,
    List.map_append]
  split
  · next hown =>
    have hnone : before.filter (fun t => t.taskQueue = queue) = [] :=
      List.filter_eq_nil_iff.2 fun t ht => by simpa using hown ▸ hbefore t ht
    simp [hown, hnone]
  · next hother => simp [hother]

/-- An event that answers no poll with a task hands out none. -/
theorem handedOut?_eq_none (h : ∀ r a, e.answered? s = some (.poll r, .ok a) → a = .poll .empty) :
    handedOut? queue s e = none := by
  unfold handedOut?
  split
  · next r a hanswer =>
    cases h r _ hanswer
    rw [if_neg (by rintro ⟨-, hfull⟩; cases hfull)]
  · rfl

/-- **One event keeps the order of a queue:** what it hands out comes from
its front, and what it starts goes to its end. -/
theorem handedOut?_append_waitingFor (h : s.Sound) (e : StoreEvent) (queue : String) :
    (handedOut? queue s e).toList ++ (e.apply s).waitingFor queue =
      s.waitingFor queue ++ startedOn queue (s.started? e).toList := by
  cases StoreEvent.does h e with
  | starts r hnew hanswer hworkflows hpending =>
    simp only [handedOut?, started?, startedOn, waitingFor, hanswer, hnew, hpending,
      List.filter_append, List.map_append]
    by_cases hqueue : r.taskQueue = queue <;> simp [hqueue]
  | handsOut r task others w htaken hstored hanswer hworkflows hpending =>
    have hwaiting := waitingFor_of_takeTask? queue htaken hpending
    have hfull := isEmpty_taskAnswer task.workflowId w
    by_cases hqueue : r.taskQueue = queue
    · rw [if_pos hqueue] at hwaiting
      simp only [handedOut?, started?, startedOn, hanswer, hqueue, hfull, and_self, if_true]
      simp [hwaiting, taskAnswer]
    · rw [if_neg hqueue] at hwaiting
      simp only [handedOut?, started?, startedOn, hanswer, hqueue, false_and, if_false]
      simp [hwaiting]
  | neither hids hpending hold hpoll =>
    have hnone : handedOut? queue s e = none := handedOut?_eq_none fun r a h => (hpoll r a h).1
    simp [hnone, hold, waitingFor, startedOn, hpending]

theorem startedOn_append (queue : String) (started later : List StartRequest) :
    startedOn queue (started ++ later) = startedOn queue started ++ startedOn queue later := by
  simp [startedOn]

/-- **What a queue has handed out, and what waits in it then,** is what
waited before and what was started on it since, in this order. -/
theorem handedOut_append_waitingFor (h : s.Sound) (events : List StoreEvent) (queue : String) :
    s.seen (handedOut? queue) events ++ (s.afterAll events).waitingFor queue =
      s.waitingFor queue ++ startedOn queue (s.seen started? events) := by
  induction events generalizing s with
  | nil => simp [seen, afterAll, startedOn]
  | cons e events ih =>
    calc s.seen (handedOut? queue) (e :: events) ++ (s.afterAll (e :: events)).waitingFor queue
        = (handedOut? queue s e).toList ++
            ((e.apply s).seen (handedOut? queue) events ++
              ((e.apply s).afterAll events).waitingFor queue) := List.append_assoc _ _ _
      _ = ((handedOut? queue s e).toList ++ (e.apply s).waitingFor queue) ++
            startedOn queue ((e.apply s).seen started? events) := by
          rw [ih (h.apply e), List.append_assoc]
      _ = s.waitingFor queue ++ startedOn queue (s.seen started? (e :: events)) := by
          rw [handedOut?_append_waitingFor h e queue, List.append_assoc, seen, startedOn_append]

/-- **The stored workflows are those that were started,** in the order of
their starts. -/
theorem ids_afterAll (h : s.Sound) (events : List StoreEvent) :
    (s.afterAll events).workflows.map Prod.fst =
      s.workflows.map Prod.fst ++ (s.seen started? events).map StartRequest.workflowId := by
  induction events generalizing s with
  | nil => simp [seen, afterAll]
  | cons e events ih =>
    have hstep : (e.apply s).workflows.map Prod.fst =
        s.workflows.map Prod.fst ++ (s.started? e).toList.map StartRequest.workflowId := by
      cases StoreEvent.does h e with
      | starts r hnew hanswer hworkflows hpending =>
        simp [started?, hanswer, hnew, hworkflows]
      | handsOut r task others w htaken hstored hanswer hworkflows hpending =>
        simp [started?, hanswer, hworkflows]
      | neither hids hpending hold hpoll => simp [hold, hids]
    rw [seen, List.map_append, ← List.append_assoc, ← hstep]
    exact ih (h.apply e)

/-- **A workflow that was started stays stored,** and continues what its
request has started. -/
theorem stored_of_started (h : s.Sound) {events : List StoreEvent} {r : StartRequest}
    (hr : r ∈ s.seen started? events) :
    ∃ w, (s.afterAll events).workflow? r.workflowId = some w ∧
      (newWorkflow r w.runId).Continues w := by
  induction events generalizing s with
  | nil => cases hr
  | cons e events ih =>
    rcases List.mem_append.1 hr with hr | hr
    · cases StoreEvent.does h e with
      | starts q hnew hanswer hworkflows hpending =>
        obtain rfl : r = q := by simpa [started?, hanswer, hnew] using hr
        obtain ⟨w, hw, hlater⟩ := continues_afterAll _ events _ _
          (workflow?_of_stored hnew hworkflows)
        refine ⟨w, hw, ?_⟩
        rw [show w.runId = s.nextRunId from hlater.runId]
        exact hlater
      | handsOut q task others w htaken hstored hanswer hworkflows hpending =>
        simp [started?, hanswer] at hr
      | neither hids hpending hold hpoll => simp [hold] at hr
    · exact ih (h.apply e) hr

/-- **A poll that is answered with no error** gets the task that has waited
longest in its queue, if one waits there. -/
theorem poll_answer (h : s.Sound) {r : PollRequest} {answer : Answer}
    (hanswer : e.answered? s = some (.poll r, .ok answer)) :
    (s.waitingFor r.taskQueue = [] ∧ answer = .poll .empty) ∨
      ∃ id w, s.workflow? id = some w ∧ answer = .poll (taskAnswer id w) ∧
        s.waitingFor r.taskQueue = id :: (e.apply s).waitingFor r.taskQueue := by
  cases StoreEvent.does h e with
  | starts q hnew hother hworkflows hpending =>
    rw [hanswer] at hother
    cases hother
  | handsOut q task others w htaken hstored hother hworkflows hpending =>
    rw [hanswer] at hother
    cases hother
    have hwaiting := waitingFor_of_takeTask? r.taskQueue htaken hpending
    rw [if_pos rfl] at hwaiting
    exact .inr ⟨task.workflowId, w, hstored, rfl, hwaiting⟩
  | neither hids hpending hold hpoll =>
    obtain ⟨hempty, htaken⟩ := hpoll r answer hanswer
    exact .inl ⟨takeTask?_eq_none_iff_waitingFor.1 htaken, hempty⟩

/-- **A poll that hands out nothing of a queue,** because it asks another
or fails or is given up, leaves the queue as it is. -/
theorem waitingFor_of_other_poll (h : s.Sound) {r : PollRequest} (hevent : e.IsOf (.poll r))
    (hother : r.taskQueue ≠ queue ∨ ∀ answer, e.answered? s ≠ some (.poll r, .ok answer)) :
    handedOut? queue s e = none ∧ s.started? e = none ∧
      (e.apply s).waitingFor queue = s.waitingFor queue := by
  cases StoreEvent.does h e with
  | starts q hnew hanswer hworkflows hpending => cases hevent.eq_of_answered hanswer
  | handsOut q task others w htaken hstored hanswer hworkflows hpending =>
    cases hevent.eq_of_answered hanswer
    have hqueue : r.taskQueue ≠ queue := hother.resolve_right fun hnone => hnone _ hanswer
    have hwaiting := waitingFor_of_takeTask? queue htaken hpending
    rw [if_neg hqueue] at hwaiting
    exact ⟨by simp [handedOut?, hanswer, hqueue], by simp [started?, hanswer], hwaiting⟩
  | neither hids hpending hold hpoll =>
    exact ⟨handedOut?_eq_none fun r a ha => (hpoll r a ha).1, hold, by
      rw [waitingFor, waitingFor, hpending]⟩

end Store

open Store in
/-- **Tasks are dispatched first in, first out,** and none is lost or handed
out twice. Whatever has happened to the service: what the polls of a queue
have handed out, followed by what still waits in it, is what was started on
the queue, in the order of the starts, and no workflow was started twice.
A poll that is answered next finds nothing exactly if nothing waits, and
otherwise gets the longest waiting task, with the run, the type and the
whole history that its workflow then has. Polls of other queues and polls
that fail or are given up leave the queue alone. -/
theorem dispatch_firstIn (events : List StoreEvent) (queue : String) :
    let s := Store.new.afterAll events
    let started := Store.new.seen started? events
    Store.new.seen (handedOut? queue) events ++ s.waitingFor queue = startedOn queue started ∧
      (started.map StartRequest.workflowId).Nodup ∧
      (∀ (r : PollRequest) (a : Answer) (e : StoreEvent),
        e.answered? s = some (.poll r, .ok a) → r.taskQueue = queue →
        ∃ answer, a = .poll answer ∧ (answer.isEmpty = true ↔ s.waitingFor queue = []) ∧
          (answer.isEmpty = false → ∃ first ∈ started, first.taskQueue = queue ∧
            s.waitingFor queue = first.workflowId :: (e.apply s).waitingFor queue ∧
            ∃ w, s.workflow? first.workflowId = some w ∧
              (newWorkflow first w.runId).Continues w ∧
              answer = taskAnswer first.workflowId w)) ∧
      ∀ (r : PollRequest) (e : StoreEvent), e.IsOf (.poll r) →
        r.taskQueue ≠ queue ∨ (∀ a, e.answered? s ≠ some (.poll r, .ok a)) →
        handedOut? queue s e = none ∧ s.started? e = none ∧
          (e.apply s).waitingFor queue = s.waitingFor queue := by
  intro s started
  have hsound : s.Sound := sound_new.afterAll events
  have htrace : Store.new.seen (handedOut? queue) events ++ s.waitingFor queue =
      startedOn queue started := handedOut_append_waitingFor sound_new events queue
  have hids : s.workflows.map Prod.fst = started.map StartRequest.workflowId :=
    ids_afterAll sound_new events
  refine ⟨htrace, hids ▸ hsound.ids, ?_, fun r e => waitingFor_of_other_poll hsound⟩
  rintro r a e hanswer rfl
  rcases poll_answer hsound hanswer with ⟨hnone, rfl⟩ | ⟨id, w, hstored, rfl, hwaiting⟩
  · exact ⟨.empty, rfl, iff_of_true rfl hnone, nofun⟩
  · have hfull := isEmpty_taskAnswer id w
    refine ⟨taskAnswer id w, rfl, by simp [hfull, hwaiting], fun _ => ?_⟩
    -- what waits in a queue was started on it
    have hid : id ∈ startedOn r.taskQueue started := by
      rw [← htrace, hwaiting]
      simp
    obtain ⟨first, hfirst, rfl⟩ := List.mem_map.1 hid
    obtain ⟨hmem, hqueue⟩ := List.mem_filter.1 hfirst
    obtain ⟨w', hw', hsince⟩ := stored_of_started sound_new hmem
    obtain rfl : w' = w := Option.some.inj (hw'.symm.trans hstored)
    exact ⟨first, hmem, of_decide_eq_true hqueue, hwaiting, w', hstored, hsince, rfl⟩

open Store in
/-- Two orders and an invoice, the first start repeated, and a poll that
fails before the one that gets the first order: the second order is next. -/
theorem dispatch_firstIn_orders :
    let start (id queue : String) : StoreEvent :=
      .settle (.start (.new "default" id "OrderWorkflow" queue ("start-" ++ id)))
    let poll : PollRequest := ⟨"default", "orders", ""⟩
    let events : List StoreEvent :=
      [start "order-1" "orders", start "invoice-1" "invoices", start "order-1" "orders",
        start "order-2" "orders", .failNext .pollTask [.new .unavailable "busy"],
        .settle (.poll poll), .arrive .pollTask, .settle (.poll poll)]
    let s := Store.new.afterAll events
    let started := Store.new.seen started? events
    startedOn "orders" started = ["order-1", "order-2"] ∧
      Store.new.seen (handedOut? "orders") events = ["order-1"] ∧
      s.waitingFor "orders" = ["order-2"] ∧ s.waitingFor "invoices" = ["invoice-1"] ∧
      Store.new.seen (handedOut? "orders") events ++ s.waitingFor "orders" =
        startedOn "orders" started ∧
      ∃ answer, StoreEvent.answered? s (.settle (.poll poll)) =
          some (.poll poll, .ok (.poll answer)) ∧ answer.isEmpty = false ∧
        ∃ first ∈ started, first.taskQueue = "orders" ∧
          ∃ w, s.workflow? first.workflowId = some w ∧ answer = taskAnswer first.workflowId w := by
  intro start poll events s started
  obtain ⟨htrace, -, hpoll, -⟩ := dispatch_firstIn events "orders"
  obtain ⟨answer, hanswer, -, hnext⟩ := hpoll poll _ (.settle (.poll poll)) rfl rfl
  have hfull : answer.isEmpty = false := by
    cases hanswer
    decide +kernel
  obtain ⟨first, hfirst, hqueue, -, w, hstored, -, hfound⟩ := hnext hfull
  exact ⟨by decide +kernel, by decide +kernel, by decide +kernel, by decide +kernel, htrace,
    answer, by cases hanswer; rfl, hfull, first, hfirst, hqueue, w, hstored, hfound⟩

end ResilientCalls
