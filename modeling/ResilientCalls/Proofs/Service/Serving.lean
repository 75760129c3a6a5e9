import ResilientCalls.Service.Stub
/-!
# What serving reads and writes

Serving a request reads the namespaces, the workflows and the waiting
tasks of a store, and writes the last two. Stores that agree on these
three are alike: they answer a request alike and stay alike. A request
that is answered with an error leaves the store as it was, and an injected
failure, like the counting of a call, leaves it alike.
-/

namespace ResilientCalls

namespace Store

/-- Two stores with the same namespaces, workflows and waiting tasks. -/
structure Alike (s s' : Store) : Prop where
  namespaces : s.namespaces = s'.namespaces
  workflows : s.workflows = s'.workflows
  pending : s.pending = s'.pending

variable {s s' s'' : Store}

theorem Alike.refl (s : Store) : s.Alike s := ⟨rfl, rfl, rfl⟩

theorem Alike.symm (h : s.Alike s') : s'.Alike s :=
  ⟨h.namespaces.symm, h.workflows.symm, h.pending.symm⟩

theorem Alike.trans (h : s.Alike s') (h' : s'.Alike s'') : s.Alike s'' :=
  ⟨h.namespaces.trans h'.namespaces, h.workflows.trans h'.workflows, h.pending.trans h'.pending⟩

/-! ## What leaves a store alike -/

theorem alike_enter (s : Store) (m : Method) : s.Alike (s.enter m) := ⟨rfl, rfl, rfl⟩

theorem alike_failNext (s : Store) (m : Method) (statuses : List Status) :
    s.Alike (s.failNext m statuses) := ⟨rfl, rfl, rfl⟩

theorem alike_setLatency (s : Store) (m : Method) (latency : Duration) :
    s.Alike (s.setLatency m latency) := ⟨rfl, rfl, rfl⟩

theorem Alike.workflow? (h : s.Alike s') (id : String) : s.workflow? id = s'.workflow? id := by
  rw [Store.workflow?, h.workflows, Store.workflow?]

/-! ## Serving alike stores -/

/-- Answers and stores that are the same, the stores as far as serving
reads them. -/
def SameOutcome {α : Type} (a b : Except Status α × Store) : Prop := a.1 = b.1 ∧ a.2.Alike b.2

theorem appendEvent_alike (h : s.Alike s') (id eventType : String) (attributes : Node) :
    SameOutcome (s.appendEvent id eventType attributes)
      (s'.appendEvent id eventType attributes) := by
  unfold appendEvent
  rw [h.workflow? id]
  cases s'.workflow? id with
  | none => exact ⟨rfl, h⟩
  | some w =>
    refine ⟨rfl, h.namespaces, ?_, h.pending⟩
    simp only [updateWorkflow, h.workflows]

theorem describe_alike (h : s.Alike s') (r : DescribeRequest) :
    SameOutcome (describe r s) (describe r s') := by
  unfold describe
  rw [h.namespaces]
  split
  · exact ⟨rfl, h⟩
  · exact ⟨rfl, h⟩

theorem start_alike (h : s.Alike s') (r : StartRequest) :
    SameOutcome (start r s) (start r s') := by
  unfold start
  rw [h.workflow? r.workflowId]
  cases s'.workflow? r.workflowId with
  | some w =>
    simp only []
    split
    · exact ⟨rfl, h⟩
    · exact ⟨rfl, h⟩
  | none =>
    -- the id of a run is told by the workflows that there are
    have hrun : s.nextRunId = s'.nextRunId := by rw [nextRunId, h.workflows, nextRunId]
    refine ⟨by simp only [hrun], h.namespaces, ?_, ?_⟩
    · simp only [hrun, h.workflows]
    · simp only [h.pending]

/-- An event that is recorded, or not, decides the answer. -/
def answering {α : Type} (a : α) : Except Status Unit × Store → Except Status α × Store
  | (.ok _, s) => (.ok a, s)
  | (.error e, s) => (.error e, s)

theorem SameOutcome.answering {α : Type} {x y : Except Status Unit × Store}
    (h : SameOutcome x y) (a : α) : SameOutcome (Store.answering a x) (Store.answering a y) := by
  obtain ⟨_ | _, s⟩ := x <;> obtain ⟨_ | _, s'⟩ := y <;> obtain ⟨hanswer, halike⟩ := h <;>
    cases hanswer
  · exact ⟨rfl, halike⟩
  · exact ⟨rfl, halike⟩

theorem SameOutcome.map {α β : Type} {x y : Except Status α × Store} (h : SameOutcome x y)
    (f : α → β) : SameOutcome (x.1.map f, x.2) (y.1.map f, y.2) :=
  ⟨by rw [h.1], h.2⟩

theorem signal_alike (h : s.Alike s') (r : SignalRequest) :
    SameOutcome (signal r s) (signal r s') :=
  (appendEvent_alike h r.execution.workflowId "WorkflowExecutionSignaled"
    (.mapping [("input", .sequence r.input), ("signal_name", .text r.signalName)])).answering _

theorem readHistory_alike (h : s.Alike s') (r : HistoryRequest) :
    SameOutcome (readHistory r s) (readHistory r s') := by
  unfold readHistory
  rw [h.workflow? r.execution.workflowId]
  cases s'.workflow? r.execution.workflowId with
  | none => exact ⟨rfl, h⟩
  | some w => exact ⟨rfl, h⟩

theorem poll_alike (h : s.Alike s') (r : PollRequest) : SameOutcome (poll r s) (poll r s') := by
  unfold poll
  rw [h.pending]
  cases takeTask? r.taskQueue s'.pending with
  | none => exact ⟨rfl, h⟩
  | some found =>
    obtain ⟨task, others⟩ := found
    have htaken : ({ s with pending := others } : Store).Alike { s' with pending := others } :=
      ⟨h.namespaces, h.workflows, rfl⟩
    simp only [htaken.workflow? task.workflowId]
    split
    · exact ⟨rfl, htaken⟩
    · exact ⟨rfl, htaken⟩

theorem complete_alike (h : s.Alike s') (r : CompleteRequest) :
    SameOutcome (complete r s) (complete r s') := by
  unfold complete
  cases tokenWorkflow? r.taskToken with
  | none => exact ⟨rfl, h⟩
  | some id =>
    exact (appendEvent_alike h id "WorkflowTaskCompleted" (.mapping
      [("commands", .integer r.commands.length), ("identity", .text r.identity)])).answering _

/-- **Alike stores answer alike.** -/
theorem serve_alike (h : s.Alike s') (r : Request) : SameOutcome (serve r s) (serve r s') := by
  cases r with
  | describe r => exact (describe_alike h r).map Answer.describe
  | start r => exact (start_alike h r).map Answer.start
  | signal r => exact (signal_alike h r).map Answer.signal
  | history r => exact (readHistory_alike h r).map Answer.history
  | poll r => exact (poll_alike h r).map Answer.poll
  | complete r => exact (complete_alike h r).map Answer.complete

/-! ## Errors have no effect -/

/-- An outcome that has no effect unless it is an answer. -/
def Harmless {α : Type} (s : Store) (outcome : Except Status α × Store) : Prop :=
  ∀ e, outcome.1 = .error e → outcome.2 = s

theorem appendEvent_harmless (s : Store) (id eventType : String) (attributes : Node) :
    s.Harmless (s.appendEvent id eventType attributes) := by
  unfold appendEvent Harmless
  split
  · exact fun _ _ => rfl
  · exact fun _ h => by cases h

theorem Harmless.answering {α : Type} {x : Except Status Unit × Store} (h : s.Harmless x)
    (a : α) : s.Harmless (Store.answering a x) := by
  obtain ⟨e | u, t⟩ := x
  · exact fun _ _ => h e rfl
  · exact fun _ hanswer => by cases hanswer

theorem Harmless.map {α β : Type} {x : Except Status α × Store} (h : s.Harmless x) (f : α → β) :
    s.Harmless (x.1.map f, x.2) := by
  obtain ⟨e | a, t⟩ := x
  · exact fun _ _ => h e rfl
  · exact fun _ hanswer => by cases hanswer

theorem describe_harmless (r : DescribeRequest) (s : Store) : s.Harmless (describe r s) := by
  unfold describe
  split <;> exact fun _ _ => rfl

theorem start_harmless (r : StartRequest) (s : Store) : s.Harmless (start r s) := by
  unfold start
  split
  · split <;> exact fun _ _ => rfl
  · exact fun _ hanswer => by cases hanswer

theorem signal_harmless (r : SignalRequest) (s : Store) : s.Harmless (signal r s) :=
  (appendEvent_harmless s r.execution.workflowId "WorkflowExecutionSignaled"
    (.mapping [("input", .sequence r.input), ("signal_name", .text r.signalName)])).answering _

theorem readHistory_harmless (r : HistoryRequest) (s : Store) :
    s.Harmless (readHistory r s) := by
  unfold readHistory
  split <;> exact fun _ _ => rfl

/-- A task that is taken is answered, also when its workflow is
unknown. -/
theorem poll_harmless (r : PollRequest) (s : Store) : s.Harmless (poll r s) := by
  unfold poll
  split
  · exact fun _ _ => rfl
  · simp only []
    split <;> exact fun _ hanswer => by cases hanswer

theorem complete_harmless (r : CompleteRequest) (s : Store) : s.Harmless (complete r s) := by
  unfold complete
  cases tokenWorkflow? r.taskToken with
  | none => exact fun _ _ => rfl
  | some id =>
    exact (appendEvent_harmless s id "WorkflowTaskCompleted" (.mapping
      [("commands", .integer r.commands.length), ("identity", .text r.identity)])).answering _

/-- **A request that is answered with an error changes nothing.** -/
theorem serve_harmless (r : Request) (s : Store) : s.Harmless (serve r s) := by
  cases r with
  | describe r => exact (describe_harmless r s).map Answer.describe
  | start r => exact (start_harmless r s).map Answer.start
  | signal r => exact (signal_harmless r s).map Answer.signal
  | history r => exact (readHistory_harmless r s).map Answer.history
  | poll r => exact (poll_harmless r s).map Answer.poll
  | complete r => exact (complete_harmless r s).map Answer.complete

/-! ## What serving leaves alone -/

/-- What is arranged and counted beside the state that requests are about. -/
def arranged (s : Store) :
    PerMethod (List Status) × PerMethod (Option Duration) × PerMethod Nat :=
  (s.failures, s.latency, s.calls)

theorem appendEvent_arranged (s : Store) (id eventType : String) (attributes : Node) :
    (s.appendEvent id eventType attributes).2.arranged = s.arranged := by
  unfold appendEvent
  split <;> rfl

theorem answering_arranged {α : Type} (a : α) (x : Except Status Unit × Store) :
    (Store.answering a x).2.arranged = x.2.arranged := by
  obtain ⟨_ | _, t⟩ := x <;> rfl

/-- **Serving leaves failures, latencies and counts as they are.** -/
theorem serve_arranged (r : Request) (s : Store) : (serve r s).2.arranged = s.arranged := by
  cases r with
  | describe r =>
    simp only [serve, describe]
    split <;> rfl
  | start r =>
    simp only [serve, start]
    split
    · split <;> rfl
    · rfl
  | signal r =>
    exact (answering_arranged (⟨⟩ : SignalAnswer) _).trans (appendEvent_arranged s _ _ _)
  | history r =>
    simp only [serve, readHistory]
    split <;> rfl
  | poll r =>
    simp only [serve, poll]
    split
    · rfl
    · split <;> rfl
  | complete r =>
    simp only [serve, complete]
    split
    · rfl
    · exact (answering_arranged (⟨⟩ : CompleteAnswer) _).trans (appendEvent_arranged s _ _ _)

/-! ## Settling -/

/-- What an answer to a request means: the request was served; an error
leaves the store alike. -/
def Settles (r : Request) (s s' : Store) : Except Status Answer → Prop
  | .ok answer => (serve r s).1 = .ok answer ∧ (serve r s).2.Alike s'
  | .error _ => s.Alike s'

/-- **A request that is settled was served, or has failed and left the
store alike.** -/
theorem settle_settles (r : Request) (s : Store) :
    Settles r s (s.settle r).2 (s.settle r).1 := by
  unfold settle
  split
  · exact ⟨rfl, rfl, rfl⟩
  · cases hanswer : (serve r s).1 with
    | ok answer => exact ⟨hanswer, .refl _⟩
    | error e =>
      have hsame := serve_harmless r s e hanswer
      rw [hsame]
      exact .refl s

/-- Settling a store that is alike is settling the store. -/
theorem Settles.of_alike {r : Request} {answer : Except Status Answer} (h : s.Alike s')
    (hsettles : Settles r s' s'' answer) : Settles r s s'' answer := by
  cases answer with
  | error e => exact h.trans hsettles
  | ok a =>
    have hserve := serve_alike h r
    exact ⟨hserve.1.trans hsettles.1, hserve.2.trans hsettles.2⟩

/-! ## One request after the other -/

/-- Serves requests one after the other, each once. -/
def serveAll : List Request → Store → List (Except Status Answer) × Store
  | [], s => ([], s)
  | r :: rs, s =>
    let served := serve r s
    let rest := serveAll rs served.2
    (served.1 :: rest.1, rest.2)

theorem serveAll_append (rs qs : List Request) (s : Store) :
    serveAll (rs ++ qs) s =
      ((serveAll rs s).1 ++ (serveAll qs (serveAll rs s).2).1,
        (serveAll qs (serveAll rs s).2).2) := by
  induction rs generalizing s with
  | nil => rfl
  | cons r rs ih => simp only [List.cons_append, serveAll, ih]

end Store

end ResilientCalls
