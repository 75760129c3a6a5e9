import ResilientCalls.Proofs.Service.Serving
/-!
# Histories that only grow

Whatever happens to the service, a workflow that is stored stays stored:
its run, the request that started it, its type and its queue never change,
and its history is only added to. `serve_continues` says so of a request
that is served, and `continues_afterAll` of anything that happens to the
service, one event after the other.
-/

namespace ResilientCalls

/-! ## Events of the service -/

/-- Something that happens to the service. -/
inductive StoreEvent where
  /-- A call reaches the service and is counted; it may be given up before
  it is answered. -/
  | arrive (m : Method)
  /-- A request is answered. -/
  | settle (r : Request)
  /-- A request is served that has got past the injected failures before
  others were arranged. -/
  | serve (r : Request)
  /-- The next calls are told to fail. -/
  | failNext (m : Method) (statuses : List Status)
  /-- Answers are told to come late. -/
  | setLatency (m : Method) (latency : Duration)

/-- What an event makes of the service. -/
def StoreEvent.apply (s : Store) : StoreEvent → Store
  | .arrive m => s.enter m
  | .settle r => (s.settle r).2
  | .serve r => (Store.serve r s).2
  | .failNext m statuses => s.failNext m statuses
  | .setLatency m latency => s.setLatency m latency

/-- What events make of it, one after the other. -/
def Store.afterAll (s : Store) (events : List StoreEvent) : Store :=
  events.foldl StoreEvent.apply s

/-! ## Workflows of a store -/

namespace Store

/-- Only the workflow of its id is updated. -/
theorem workflow?_updateWorkflow (s : Store) (id other : String) (f : Workflow → Workflow) :
    (s.updateWorkflow id f).workflow? other =
      if other = id then (s.workflow? id).map f else s.workflow? other := by
  simp only [workflow?, updateWorkflow]
  induction s.workflows with
  | nil => simp
  | cons e rest ih =>
    obtain ⟨key, w⟩ := e
    by_cases hkey : key = id <;> by_cases hother : other = id <;>
      simp_all [List.lookup_cons]
    all_goals split <;> simp_all

/-- An update changes no id. -/
theorem ids_updateWorkflow (s : Store) (id : String) (f : Workflow → Workflow) :
    (s.updateWorkflow id f).workflows.map Prod.fst = s.workflows.map Prod.fst := by
  have hkeys : ∀ entry : String × Workflow,
      (if entry.1 = id then (entry.1, f entry.2) else entry).1 = entry.1 :=
    fun entry => by split <;> rfl
  simp only [updateWorkflow, List.map_map, Function.comp_def, hkeys]

/-- An event is recorded in a workflow that is stored, and in no other. -/
theorem appendEvent_of_workflow? {s : Store} {id : String} {w : Workflow}
    (h : s.workflow? id = some w) (eventType : String) (attributes : Node) :
    s.appendEvent id eventType attributes =
      (.ok (), s.updateWorkflow id fun w => w.append eventType attributes) := by
  rw [appendEvent, h]

end Store

/-! ## What later states keep -/

/-- The same workflow at a later time, perhaps with a longer history. -/
structure Workflow.Continues (w w' : Workflow) : Prop where
  runId : w'.runId = w.runId
  requestId : w'.requestId = w.requestId
  workflowType : w'.workflowType = w.workflowType
  taskQueue : w'.taskQueue = w.taskQueue
  history : w.history <+: w'.history

namespace Workflow.Continues

variable {w w' w'' : Workflow}

theorem refl (w : Workflow) : w.Continues w := ⟨rfl, rfl, rfl, rfl, List.prefix_refl _⟩

theorem trans (h : w.Continues w') (h' : w'.Continues w'') : w.Continues w'' :=
  ⟨h'.runId.trans h.runId, h'.requestId.trans h.requestId,
    h'.workflowType.trans h.workflowType, h'.taskQueue.trans h.taskQueue,
    h.history.trans h'.history⟩

theorem append (w : Workflow) (eventType : String) (attributes : Node) :
    w.Continues (w.append eventType attributes) :=
  ⟨rfl, rfl, rfl, rfl, List.prefix_append _ _⟩

end Workflow.Continues

namespace Store

/-- Every workflow stored in the one is stored in the other, and continues
there. -/
def Continues (s s' : Store) : Prop :=
  ∀ id w, s.workflow? id = some w → ∃ w', s'.workflow? id = some w' ∧ w.Continues w'

variable {s s' s'' : Store}

theorem Continues.of_workflows (h : s'.workflows = s.workflows) : s.Continues s' := by
  intro id w hw
  refine ⟨w, ?_, .refl w⟩
  rw [workflow?, h]
  exact hw

theorem Continues.trans (h : s.Continues s') (h' : s'.Continues s'') : s.Continues s'' := by
  intro id w hw
  obtain ⟨w', hw', hcontinues⟩ := h id w hw
  obtain ⟨w'', hw'', hlater⟩ := h' id w' hw'
  exact ⟨w'', hw'', hcontinues.trans hlater⟩

theorem appendEvent_continues (s : Store) (id eventType : String) (attributes : Node) :
    s.Continues (s.appendEvent id eventType attributes).2 := by
  cases hstored : s.workflow? id with
  | none =>
    rw [appendEvent, hstored]
    exact .of_workflows rfl
  | some stored =>
    rw [appendEvent_of_workflow? hstored]
    intro other w hw
    rw [workflow?_updateWorkflow]
    by_cases hother : other = id
    · rw [hother, hstored, Option.some.injEq] at hw
      rw [if_pos hother, hstored, hw]
      exact ⟨_, rfl, .append w eventType attributes⟩
    · rw [if_neg hother]
      exact ⟨w, hw, .refl w⟩

theorem answering_continues {α : Type} {a : α} {x : Except Status Unit × Store}
    (h : s.Continues x.2) : s.Continues (answering a x).2 := by
  obtain ⟨_ | _, t⟩ := x
  · exact h
  · exact h

/-- A workflow is started only under an id that is not stored yet. -/
theorem start_continues (r : StartRequest) (s : Store) : s.Continues (start r s).2 := by
  unfold start
  cases hstored : s.workflow? r.workflowId with
  | some stored =>
    simp only []
    split <;> exact .of_workflows rfl
  | none =>
    intro id w hw
    refine ⟨w, ?_, .refl w⟩
    rw [workflow?] at hw ⊢
    rw [List.lookup_append, hw, Option.some_or]

theorem poll_workflows (r : PollRequest) (s : Store) : (poll r s).2.workflows = s.workflows := by
  unfold poll
  split
  · rfl
  · simp only []
    split <;> rfl

/-- **A request that is served only adds to histories.** -/
theorem serve_continues (r : Request) (s : Store) : s.Continues (serve r s).2 := by
  cases r with
  | describe r =>
    simp only [serve, describe]
    split <;> exact .of_workflows rfl
  | start r => exact start_continues r s
  | signal r =>
    exact answering_continues (a := (⟨⟩ : SignalAnswer)) (appendEvent_continues s _ _ _)
  | history r =>
    simp only [serve, readHistory]
    split <;> exact .of_workflows rfl
  | poll r => exact .of_workflows (poll_workflows r s)
  | complete r =>
    simp only [serve, complete]
    split
    · exact .of_workflows rfl
    · rename_i id _
      exact answering_continues (a := (⟨⟩ : CompleteAnswer)) (appendEvent_continues s id _ _)

theorem settle_continues (r : Request) (s : Store) : s.Continues (s.settle r).2 := by
  unfold settle
  split
  · exact .of_workflows rfl
  · exact serve_continues r s

theorem apply_continues (s : Store) (e : StoreEvent) : s.Continues (e.apply s) := by
  cases e with
  | arrive m => exact .of_workflows rfl
  | settle r => exact settle_continues r s
  | serve r => exact serve_continues r s
  | failNext m statuses => exact .of_workflows rfl
  | setLatency m latency => exact .of_workflows rfl

/-- **Whatever happens to the service, a workflow stays stored,** and its
history is only added to. -/
theorem continues_afterAll (s : Store) (events : List StoreEvent) :
    s.Continues (s.afterAll events) := by
  induction events generalizing s with
  | nil => exact .of_workflows rfl
  | cons e events ih => exact (apply_continues s e).trans (ih (e.apply s))

end Store

end ResilientCalls
