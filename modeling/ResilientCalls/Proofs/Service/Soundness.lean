import Mathlib.Data.List.Nodup
import ResilientCalls.Proofs.Service.Histories
/-!
# The service stays sound

What holds of every state that the service can come to. The history of a
stored workflow begins with the event of its start, holds no other such
event and is numbered from one; a waiting task names a stored workflow under
that workflow's queue; and no workflow waits twice. Each operation keeps
this (`Sound.serve`), so a task that is polled always finds its workflow
(`Sound.poll_of_takeTask?`). A request that fails, or is given up before it
is answered, changes at most the count and the injected failures of its
call: `request_sameBut`.
-/

namespace ResilientCalls

/-! ## Well-kept records -/

/-- The type of the event that a history begins with. -/
def Workflow.startedType : String := "WorkflowExecutionStarted"

/-- A history as it should be: it begins with the event of the start, the
only one of its type, and its events are numbered from one. -/
structure Workflow.WellRecorded (w : Workflow) : Prop where
  begins : ∃ first rest, w.history = first :: rest ∧
    first.eventType = startedType ∧ ∀ e ∈ rest, e.eventType ≠ startedType
  numbered : w.history.map HistoryEvent.eventId =
    (List.range' 1 w.history.length).map Int.ofNat

namespace Workflow

/-- A later event of another type keeps a history as it should be. -/
theorem WellRecorded.append {w : Workflow} (h : w.WellRecorded) {eventType : String}
    (htype : eventType ≠ startedType) (attributes : Node) :
    (w.append eventType attributes).WellRecorded := by
  obtain ⟨first, rest, hhistory, hfirst, hrest⟩ := h.begins
  refine ⟨⟨first, rest ++ [⟨(w.history.length + 1 : Nat), eventType, attributes⟩],
    by rw [Workflow.append, hhistory, List.cons_append], hfirst, ?_⟩, ?_⟩
  · intro e he
    rcases List.mem_append.1 he with he | he
    · exact hrest e he
    · rw [List.mem_singleton.1 he]
      exact htype
  · -- the next event has the next number
    simp only [Workflow.append, List.map_append, h.numbered, List.length_append,
      List.length_singleton, List.range'_1_concat, List.map_cons, List.map_nil]
    rw [Nat.add_comm]
    rfl

end Workflow

namespace Store

/-- A workflow that has just been started is well recorded. -/
theorem newWorkflow_wellRecorded (r : StartRequest) (runId : String) :
    (newWorkflow r runId).WellRecorded :=
  ⟨⟨_, [], rfl, rfl, by simp⟩, rfl⟩

/-- **What holds of the service at any time.** -/
structure Sound (s : Store) : Prop where
  /-- No id is stored twice. -/
  ids : (s.workflows.map Prod.fst).Nodup
  recorded : ∀ entry ∈ s.workflows, entry.2.WellRecorded
  /-- A waiting task names a stored workflow under the queue of this
  workflow. -/
  queued : ∀ task ∈ s.pending, ∃ w, s.workflow? task.workflowId = some w ∧
    w.taskQueue = task.taskQueue
  /-- No workflow waits twice. -/
  once : (s.pending.map PendingTask.workflowId).Nodup

variable {s s' : Store}

/-- A service that has just been set up is sound: it stores nothing. -/
theorem sound_new : new.Sound :=
  ⟨List.nodup_nil, by simp [new], by simp [new], List.nodup_nil⟩

/-- Only workflows and waiting tasks matter. -/
theorem Sound.of_alike (h : s.Sound) (halike : s.Alike s') : s'.Sound := by
  refine ⟨halike.workflows ▸ h.ids, halike.workflows ▸ h.recorded, ?_, halike.pending ▸ h.once⟩
  intro task htask
  rw [← halike.workflow?]
  exact h.queued task (halike.pending ▸ htask)

/-! ## What each operation keeps -/

/-- Tasks keep their workflows where every stored workflow continues. -/
theorem Sound.queued_of_continues (h : s.Sound) (hcontinues : s.Continues s')
    {task : PendingTask} (htask : task ∈ s.pending) :
    ∃ w, s'.workflow? task.workflowId = some w ∧ w.taskQueue = task.taskQueue := by
  obtain ⟨w, hw, hqueue⟩ := h.queued task htask
  obtain ⟨w', hw', hlater⟩ := hcontinues _ w hw
  exact ⟨w', hw', hlater.taskQueue.trans hqueue⟩

theorem Sound.appendEvent (h : s.Sound) (id : String) {eventType : String}
    (htype : eventType ≠ Workflow.startedType) (attributes : Node) :
    (s.appendEvent id eventType attributes).2.Sound := by
  have hcontinues := appendEvent_continues s id eventType attributes
  cases hstored : s.workflow? id with
  | none =>
    rw [Store.appendEvent, hstored]
    exact h
  | some w =>
    rw [appendEvent_of_workflow? hstored] at hcontinues ⊢
    refine ⟨?_, ?_, fun task htask => h.queued_of_continues hcontinues htask, h.once⟩
    · rw [ids_updateWorkflow]
      exact h.ids
    · intro entry hentry
      obtain ⟨old, hold, rfl⟩ := List.mem_map.1 hentry
      have hrecorded := h.recorded old hold
      split
      · exact hrecorded.append htype attributes
      · exact hrecorded

/-- The answer does not change what is stored. -/
theorem answering_snd {α : Type} (a : α) (x : Except Status Unit × Store) :
    (answering a x).2 = x.2 := by
  obtain ⟨_ | _, t⟩ := x <;> rfl

theorem Sound.signal (h : s.Sound) (r : SignalRequest) : (signal r s).2.Sound := by
  rw [show (Store.signal r s).2 = (s.appendEvent _ _ _).2 from answering_snd _ _]
  exact h.appendEvent _ (by decide) _

theorem Sound.complete (h : s.Sound) (r : CompleteRequest) : (complete r s).2.Sound := by
  unfold Store.complete
  cases tokenWorkflow? r.taskToken with
  | none => exact h
  | some id =>
    show (answering _ _).2.Sound
    rw [answering_snd]
    exact h.appendEvent id (by decide) _

/-- No workflow is stored under an id that none is found under. -/
theorem not_mem_ids_of_workflow?_eq_none {id : String} (h : s.workflow? id = none) :
    id ∉ s.workflows.map Prod.fst := by
  intro hid
  obtain ⟨⟨key, w⟩, hentry, rfl⟩ := List.mem_map.1 hid
  exact absurd rfl (bne_iff_ne.1 (List.lookup_eq_none_iff.1 h _ hentry))

/-- **Starting a workflow keeps the service sound:** its id is new, so
nothing waits under it yet. -/
theorem Sound.start (h : s.Sound) (r : StartRequest) : (start r s).2.Sound := by
  have hcontinues := start_continues r s
  unfold Store.start at hcontinues ⊢
  cases hstored : s.workflow? r.workflowId with
  | some w =>
    simp only []
    split <;> exact h
  | none =>
    rw [hstored] at hcontinues
    have hfresh := not_mem_ids_of_workflow?_eq_none hstored
    have hlookup : (s.workflows ++ [(r.workflowId, newWorkflow r s.nextRunId)]).lookup
        r.workflowId = some (newWorkflow r s.nextRunId) := by
      rw [List.lookup_append, show s.workflows.lookup r.workflowId = none from hstored,
        Option.none_or, List.lookup_cons_self]
    refine ⟨?_, ?_, ?_, ?_⟩
    · simp only [List.map_append, List.map_cons, List.map_nil]
      exact h.ids.append (List.nodup_singleton _) (by simpa using hfresh)
    · intro entry hentry
      rcases List.mem_append.1 hentry with hentry | hentry
      · exact h.recorded entry hentry
      · rw [List.mem_singleton.1 hentry]
        exact newWorkflow_wellRecorded r _
    · intro task htask
      rcases List.mem_append.1 htask with htask | htask
      · exact h.queued_of_continues hcontinues htask
      · rw [List.mem_singleton.1 htask]
        exact ⟨_, hlookup, rfl⟩
    · -- a task that waits names a stored workflow, which the new one is not
      have hunheard : r.workflowId ∉ s.pending.map PendingTask.workflowId := by
        intro hmem
        obtain ⟨task, htask, hid⟩ := List.mem_map.1 hmem
        obtain ⟨w, hw, -⟩ := h.queued task htask
        rw [hid, hstored] at hw
        cases hw
      simp only [List.map_append, List.map_cons, List.map_nil]
      exact h.once.append (List.nodup_singleton _) (by simpa using hunheard)

/-- Fewer waiting tasks are as sound. -/
theorem Sound.of_sublist (h : s.Sound) (hworkflows : s'.workflows = s.workflows)
    (hpending : s'.pending.Sublist s.pending) : s'.Sound := by
  refine ⟨hworkflows ▸ h.ids, hworkflows ▸ h.recorded, ?_, h.once.sublist (hpending.map _)⟩
  intro task htask
  exact h.queued_of_continues (.of_workflows hworkflows) (hpending.subset htask)

theorem poll_pending_sublist (r : PollRequest) (s : Store) :
    (poll r s).2.pending.Sublist s.pending := by
  unfold poll
  cases htaken : takeTask? r.taskQueue s.pending with
  | none => exact .refl _
  | some found =>
    obtain ⟨task, others⟩ := found
    obtain ⟨-, before, after, hbefore, hafter, -⟩ := eq_append_of_takeTask? htaken
    have hsublist : others.Sublist s.pending := by
      rw [hbefore, hafter]
      exact (List.sublist_cons_self task after).append_left before
    simp only []
    split <;> exact hsublist

theorem Sound.poll (h : s.Sound) (r : PollRequest) : (poll r s).2.Sound :=
  h.of_sublist (poll_workflows r s) (poll_pending_sublist r s)

/-- **A request that is served keeps the service sound.** -/
theorem Sound.serve (h : s.Sound) (r : Request) : (serve r s).2.Sound := by
  cases r with
  | describe r =>
    simp only [Store.serve, describe]
    split <;> exact h
  | start r => exact h.start r
  | signal r => exact h.signal r
  | history r =>
    simp only [Store.serve, readHistory]
    split <;> exact h
  | poll r => exact h.poll r
  | complete r => exact h.complete r

theorem Sound.settle (h : s.Sound) (r : Request) : (s.settle r).2.Sound := by
  unfold Store.settle
  split
  · exact h.of_alike ⟨rfl, rfl, rfl⟩
  · exact h.serve r

theorem Sound.apply (h : s.Sound) (e : StoreEvent) : (e.apply s).Sound := by
  cases e with
  | arrive m => exact h.of_alike (alike_enter s m)
  | settle r => exact h.settle r
  | serve r => exact h.serve r
  | failNext m statuses => exact h.of_alike (alike_failNext s m statuses)
  | setLatency m latency => exact h.of_alike (alike_setLatency s m latency)

/-- **Whatever happens to the service, it stays sound.** -/
theorem Sound.afterAll (h : s.Sound) (events : List StoreEvent) : (s.afterAll events).Sound := by
  induction events generalizing s with
  | nil => exact h
  | cons e events ih => exact ih (h.apply e)

/-- **A polled task finds its workflow,** so it is always answered with the
workflow, by its token. -/
theorem Sound.poll_of_takeTask? (h : s.Sound) {r : PollRequest} {task : PendingTask}
    {others : List PendingTask} (htaken : takeTask? r.taskQueue s.pending = some (task, others)) :
    ∃ w, s.workflow? task.workflowId = some w ∧ w.taskQueue = r.taskQueue ∧
      Store.poll r s = (.ok ⟨taskToken task.workflowId w, some ⟨task.workflowId, some w.runId⟩,
        w.workflowType, w.history, 1⟩, { s with pending := others }) := by
  obtain ⟨hqueue, before, after, hpending, -, -⟩ := eq_append_of_takeTask? htaken
  obtain ⟨w, hw, hown⟩ := h.queued task (by rw [hpending]; simp)
  have hleft : ({ s with pending := others } : Store).workflow? task.workflowId = some w := hw
  refine ⟨w, hw, hown.trans hqueue, ?_⟩
  rw [Store.poll, htaken]
  simp only [hleft]

/-! ## Requests that fail or are given up -/

/-- The same service but for the count and the injected failures of one
call. -/
structure SameBut (m : Method) (s s' : Store) : Prop where
  alike : s.Alike s'
  latency : s.latency = s'.latency
  failures : ∀ n, n ≠ m → s.failures.get n = s'.failures.get n
  calls : ∀ n, n ≠ m → s.calls.get n = s'.calls.get n

theorem SameBut.refl (m : Method) (s : Store) : s.SameBut m s :=
  ⟨.refl s, rfl, fun _ _ => rfl, fun _ _ => rfl⟩

theorem SameBut.trans {m : Method} {s s' s'' : Store} (h : s.SameBut m s')
    (h' : s'.SameBut m s'') : s.SameBut m s'' :=
  ⟨h.alike.trans h'.alike, h.latency.trans h'.latency,
    fun n hne => (h.failures n hne).trans (h'.failures n hne),
    fun n hne => (h.calls n hne).trans (h'.calls n hne)⟩

theorem enter_sameBut (s : Store) (m : Method) : s.SameBut m (s.enter m) :=
  ⟨alike_enter s m, rfl, fun _ _ => rfl, fun _ hne => (PerMethod.get_set_of_ne _ hne _).symm⟩

/-- A request that settles with an error uses up at most an injected
failure of its call. -/
theorem settle_sameBut {r : Request} {e : Status} (h : (s.settle r).1 = .error e) :
    s.SameBut r.method (s.settle r).2 := by
  unfold settle at h ⊢
  cases hfailures : s.failures.get r.method with
  | cons status rest =>
    exact ⟨⟨rfl, rfl, rfl⟩, rfl, fun _ hne => (PerMethod.get_set_of_ne _ hne _).symm,
      fun _ _ => rfl⟩
  | nil =>
    rw [hfailures] at h
    simp only at h ⊢
    rw [serve_harmless r s e h]
    exact .refl _ s

/-- **Looking at a request changes at most its own failures,** unless it is
answered with something else than an error. -/
theorem stub_look_sameBut (r : Request) (now answerAt : Instant) (s : Store) :
    (∃ answer, (stub.look r now answerAt s).1 = some (.ok answer)) ∨
      s.SameBut r.method (stub.look r now answerAt s).2 := by
  by_cases hreached : answerAt.reached now
  · simp only [stub, hreached, if_true]
    cases hresult : (s.settle r).1 with
    | ok answer => exact .inl ⟨answer, rfl⟩
    | error e => exact .inr (settle_sameBut hresult)
  · simp only [stub, hreached]
    exact .inr (.refl _ s)

/-- A request on its way, looked at at some instants until it is answered.
Without an answer it is given up. -/
def lookOver (r : Request) (answerAt : Instant) :
    List Instant → Store → Option (Except Status Answer) × Store
  | [], s => (none, s)
  | now :: later, s =>
    match stub.look r now answerAt s with
    | (some result, s) => (some result, s)
    | (none, s) => lookOver r answerAt later s

/-- A request from its sending to its answer, or until it is given up. -/
def request (r : Request) (sent : Instant) (looks : List Instant) (s : Store) :
    Option (Except Status Answer) × Store :=
  let (answerAt, s) := stub.send r sent s
  lookOver r answerAt looks s

theorem lookOver_sameBut (r : Request) (answerAt : Instant) (looks : List Instant) (s : Store) :
    (∃ answer, (lookOver r answerAt looks s).1 = some (.ok answer)) ∨
      s.SameBut r.method (lookOver r answerAt looks s).2 := by
  induction looks generalizing s with
  | nil => exact .inr (.refl _ s)
  | cons now later ih =>
    have hlook := stub_look_sameBut r now answerAt s
    unfold lookOver
    generalize stub.look r now answerAt s = looked at hlook ⊢
    obtain ⟨_ | result, s'⟩ := looked
    · obtain ⟨answer, hanswer⟩ | hsame := hlook
      · cases hanswer
      · exact (ih s').imp_right hsame.trans
    · exact hlook

/-- **A request that fails or is given up has no effect** but on the count
and the injected failures of its call. -/
theorem request_sameBut (r : Request) (sent : Instant) (looks : List Instant) (s : Store) :
    (∃ answer, (request r sent looks s).1 = some (.ok answer)) ∨
      s.SameBut r.method (request r sent looks s).2 :=
  (lookOver_sameBut r _ looks (s.enter r.method)).imp_right (enter_sameBut s r.method).trans

/-- A request on its way is settled at most once. -/
theorem lookOver_snd (r : Request) (answerAt : Instant) (looks : List Instant) (s : Store) :
    (lookOver r answerAt looks s).2 = s ∨
      (lookOver r answerAt looks s).2 = StoreEvent.apply s (.settle r) := by
  induction looks with
  | nil => exact .inl rfl
  | cons now later ih =>
    by_cases hreached : answerAt.reached now
    · exact .inr (by simp only [lookOver, stub, hreached, if_true, StoreEvent.apply])
    · simp only [lookOver, stub, hreached, Bool.false_eq_true, if_false]
      exact ih

/-- A request is two events of the service at most: it arrives, and it is
settled. -/
theorem request_reached (r : Request) (sent : Instant) (looks : List Instant) (s : Store) :
    ∃ events, (request r sent looks s).2 = s.afterAll events := by
  obtain hgiven | hsettled := lookOver_snd r (stub.send r sent s).1 looks (s.enter r.method)
  · exact ⟨[.arrive r.method], hgiven⟩
  · exact ⟨[.arrive r.method, .settle r], hsettled⟩

end Store

/-- **The service stays sound.** In every state that it comes to, histories,
ids and waiting tasks are as they should be; whatever happens later, every
stored workflow continues, its run and its request unchanged and its history
only added to; and a request that is answered with an error, or given up,
has changed nothing but the count and the injected failures of its call. -/
theorem store_sound (events : List StoreEvent) :
    (Store.new.afterAll events).Sound ∧
      (∀ later, (Store.new.afterAll events).Continues
        ((Store.new.afterAll events).afterAll later)) ∧
      ∀ (r : Request) (sent : Instant) (looks : List Instant),
        (∃ more, ((Store.new.afterAll events).request r sent looks).2 =
          Store.new.afterAll (events ++ more)) ∧
        ((∃ answer, ((Store.new.afterAll events).request r sent looks).1 = some (.ok answer)) ∨
          (Store.new.afterAll events).SameBut r.method
            ((Store.new.afterAll events).request r sent looks).2) := by
  refine ⟨Store.sound_new.afterAll events, Store.continues_afterAll _, fun r sent looks => ⟨?_, ?_⟩⟩
  · obtain ⟨more, hmore⟩ := Store.request_reached r sent looks (Store.new.afterAll events)
    exact ⟨more, by rw [hmore, Store.afterAll, Store.afterAll, Store.afterAll, List.foldl_append]⟩
  · exact Store.request_sameBut r sent looks _

end ResilientCalls
