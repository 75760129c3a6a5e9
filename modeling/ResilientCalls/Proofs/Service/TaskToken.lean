import Mathlib.Data.List.TakeWhile
import ResilientCalls.Proofs.Service.Histories
/-!
# Where the token of a task leads

The token of a task is the id of its workflow, a slash and the length of
the history, and a completion is led by what stands before the first
slash. So the token leads back to its own workflow, at any later time, as
long as the id has no slash. A task of a workflow whose id has one is
completed in another workflow, or not at all.
-/

namespace ResilientCalls

namespace Store

variable {s s' : Store}

/-! ## Tokens -/

/-- The workflow that a completed task of a workflow is recorded in: what
stands before the first slash of its id. -/
def addressee (id : String) : String := String.ofList (id.toList.takeWhile (· != '/'))

/-- **Only an id without a slash is its own addressee.** -/
theorem addressee_eq_iff (id : String) : addressee id = id ↔ '/' ∉ id.toList := by
  rw [addressee, ← String.toList_inj, String.toList_ofList, List.takeWhile_eq_self_iff]
  constructor
  · intro hall hmem
    simpa using hall '/' hmem
  · intro hslash c hc
    simp only [bne_iff_ne, ne_eq]
    rintro rfl
    exact hslash hc

/-- What follows a slash does not count before the first one. -/
theorem takeWhile_append_slash (cs rest : List Char) :
    (cs ++ '/' :: rest).takeWhile (· != '/') = cs.takeWhile (· != '/') := by
  induction cs with
  | nil => rfl
  | cons c cs ih => simp only [List.cons_append, List.takeWhile_cons, ih]

/-- **A token leads to the addressee of its workflow's id.** -/
theorem tokenWorkflow?_taskToken (id : String) (w : Workflow) :
    tokenWorkflow? (taskToken id w) = some (addressee id) := by
  have htoken : (taskToken id w).toList =
      id.toList ++ '/' :: (toString w.history.length).toList := by
    simp [taskToken]
  rw [tokenWorkflow?, htoken, takeWhile_append_slash, if_pos (by simp), addressee]

/-! ## Answers to polls -/

/-- **An answer that holds a task** names a stored workflow, and its token
is made of that workflow's id. The workflow is stored afterwards too. -/
theorem stored_of_poll {r : PollRequest} {a : PollAnswer}
    (h : (serve (.poll r) s).1 = .ok (.poll a)) (hfull : a.isEmpty = false) :
    ∃ id w, (serve (.poll r) s).2.workflow? id = some w ∧
      a.execution = some ⟨id, some w.runId⟩ ∧ a.taskToken = taskToken id w := by
  have hempty : PollAnswer.empty.isEmpty = true := rfl
  have hserve : serve (.poll r) s = ((poll r s).1.map .poll, (poll r s).2) := rfl
  have hpoll : (poll r s).1 = .ok a := by
    rw [hserve] at h
    rcases hanswer : (poll r s).1 with e | b <;> rw [hanswer] at h
    · cases h
    · cases h
      rfl
  rw [hserve]
  simp only []
  unfold poll at hpoll ⊢
  cases htask : takeTask? r.taskQueue s.pending with
  | none =>
    simp only [htask] at hpoll
    cases hpoll
    cases hempty.symm.trans hfull
  | some found =>
    obtain ⟨task, others⟩ := found
    simp only [htask] at hpoll ⊢
    cases hstored : ({ s with pending := others } : Store).workflow? task.workflowId with
    | none =>
      simp only [hstored] at hpoll
      cases hpoll
      cases hempty.symm.trans hfull
    | some w =>
      simp only [hstored] at hpoll ⊢
      cases hpoll
      exact ⟨task.workflowId, w, hstored, rfl, rfl⟩

/-! ## Completions -/

/-- A completed task has been recorded in the history of a workflow, and
nothing else of the store has changed. -/
structure Completed (c : CompleteRequest) (id : String) (s s' : Store) : Prop where
  appended : ∃ w, s.workflow? id = some w ∧ s'.workflow? id = some (w.append
    "WorkflowTaskCompleted"
    (.mapping [("commands", .integer c.commands.length), ("identity", .text c.identity)]))
  others : ∀ other, other ≠ id → s'.workflow? other = s.workflow? other
  rest : s' = { s with workflows := s'.workflows }

/-- A task whose token leads to a stored workflow is completed there. -/
theorem complete_of_workflow? {c : CompleteRequest} {id : String} {w : Workflow}
    (htoken : tokenWorkflow? c.taskToken = some id) (hstored : s.workflow? id = some w) :
    (serve (.complete c) s).1 = .ok (.complete ⟨⟩) ∧
      Completed c id s (serve (.complete c) s).2 := by
  simp only [serve, complete, htoken, appendEvent_of_workflow? hstored]
  refine ⟨rfl, ⟨w, hstored, ?_⟩, ?_, rfl⟩
  · rw [workflow?_updateWorkflow, if_pos rfl, hstored, Option.map_some]
  · intro other hother
    rw [workflow?_updateWorkflow, if_neg hother]

/-- A task whose token leads to no stored workflow is refused. -/
theorem complete_of_not_stored {c : CompleteRequest} {id : String}
    (htoken : tokenWorkflow? c.taskToken = some id) (hstored : s.workflow? id = none) :
    serve (.complete c) s =
      (.error (.new .notFound ("workflow " ++ id ++ " not found")), s) := by
  simp only [serve, complete, htoken, appendEvent, hstored]
  rfl

end Store

open Store in
/-- **Where a completed task is recorded.** Whatever state the service is
in when a poll hands out a task, and whatever happens to it afterwards: a
completion with the token of the answer, if it is not failed by an injected
status, succeeds, adds its event to the history of the workflow that the
answer names and changes nothing else, provided that the workflow's id has
no slash. With a slash in the id, what stands before the first one is taken
for the id, so the completion is recorded in that workflow, or refused
where there is none, and never reaches the workflow of the answer. -/
theorem completion_leadsBack (s : Store) (r : PollRequest) (a : PollAnswer)
    (hpoll : (serve (.poll r) s).1 = .ok (.poll a)) (hfull : a.isEmpty = false)
    (events : List StoreEvent) (c : CompleteRequest) (htoken : c.taskToken = a.taskToken) :
    let later := (serve (.poll r) s).2.afterAll events
    let served := serve (.complete c) later
    ∃ id runId, a.execution = some ⟨id, some runId⟩ ∧
      ('/' ∉ id.toList →
        served.1 = .ok (.complete ⟨⟩) ∧ Completed c id later served.2) ∧
      ('/' ∈ id.toList →
        served.2.workflow? id = later.workflow? id ∧
        match later.workflow? (addressee id) with
        | some _ => served.1 = .ok (.complete ⟨⟩) ∧ Completed c (addressee id) later served.2
        | none => served = (.error (.new .notFound
            ("workflow " ++ addressee id ++ " not found")), later)) := by
  intro later served
  obtain ⟨id, w, hstored, hexecution, hmade⟩ := stored_of_poll hpoll hfull
  have hleads : tokenWorkflow? c.taskToken = some (addressee id) := by
    rw [htoken, hmade, tokenWorkflow?_taskToken]
  refine ⟨id, w.runId, hexecution, ?_, ?_⟩
  · intro hslash
    -- the workflow of the answer is still stored, and its id is its own addressee
    obtain ⟨w', hlater, -⟩ := continues_afterAll _ events id w hstored
    rw [(addressee_eq_iff id).2 hslash] at hleads
    exact complete_of_workflow? hleads hlater
  · intro hslash
    have hother : id ≠ addressee id := by
      intro heq
      exact (addressee_eq_iff id).1 heq.symm hslash
    cases hlater : later.workflow? (addressee id) with
    | none =>
      have hrefused := complete_of_not_stored hleads hlater
      exact ⟨by rw [show served = _ from hrefused], hrefused⟩
    | some w' =>
      have hcompleted := complete_of_workflow? hleads hlater
      exact ⟨hcompleted.2.others id hother, hcompleted⟩

open Store in
/-- A task that is completed after a signal. -/
theorem completion_leadsBack_order :
    let started := (serve (.start (.new "default" "order-1" "OrderWorkflow" "orders" "r-1")) new).2
    let polled := serve (.poll ⟨"default", "orders", ""⟩) started
    let later := polled.2.afterAll
      [.arrive .signalWorkflow, .serve (.signal (.new "default" ⟨"order-1", none⟩ "paid" "r-2"))]
    let c : CompleteRequest := ⟨"default", "order-1/1", [], "worker-1"⟩
    ∃ a, polled.1 = .ok (.poll a) ∧ a.isEmpty = false ∧ c.taskToken = a.taskToken ∧
      a.execution = some ⟨"order-1", some "run-1"⟩ ∧ later.historyLength "order-1" = 2 ∧
      (serve (.complete c) later).1 = .ok (.complete ⟨⟩) ∧
      Completed c "order-1" later (serve (.complete c) later).2 := by
  intro started polled later c
  have hpoll : polled.1 = .ok (.poll ⟨taskToken "order-1" _, some ⟨"order-1", some "run-1"⟩,
    "OrderWorkflow", _, 1⟩) := rfl
  obtain ⟨id, runId, hexecution, hback, -⟩ := completion_leadsBack started _ _ hpoll
    (by decide +kernel) [.arrive .signalWorkflow,
      .serve (.signal (.new "default" ⟨"order-1", none⟩ "paid" "r-2"))] c (by decide +kernel)
  obtain rfl : "order-1" = id := by
    simpa using congrArg (Option.map Execution.workflowId) hexecution
  exact ⟨_, hpoll, by decide +kernel, by decide +kernel, rfl, by decide +kernel,
    hback (by decide +kernel)⟩

open Store in
/-- A valid id with a slash: the task of workflow `a/b` is refused, since
there is no workflow `a`. -/
theorem completion_refused_slashedId :
    let r : StartRequest := .new "default" "a/b" "OrderWorkflow" "orders" "r-1"
    let polled := serve (.poll ⟨"default", "orders", ""⟩) (serve (.start r) new).2
    r.validate = .ok () ∧ ∃ a, polled.1 = .ok (.poll a) ∧ a.isEmpty = false ∧
      a.execution = some ⟨"a/b", some "run-1"⟩ ∧
      (serve (.complete ⟨"default", a.taskToken, [], "worker-1"⟩) polled.2).1 =
        .error (.new .notFound "workflow a not found") := by
  intro r polled
  refine ⟨rfl, _, rfl, by decide +kernel, rfl, ?_⟩
  have hrefused : ∀ c : CompleteRequest, tokenWorkflow? c.taskToken = some "a" →
      (serve (.complete c) polled.2).1 = .error (.new .notFound "workflow a not found") :=
    fun c htoken => congrArg Prod.fst (complete_of_not_stored htoken rfl)
  exact hrefused _ (by decide +kernel)

end ResilientCalls
