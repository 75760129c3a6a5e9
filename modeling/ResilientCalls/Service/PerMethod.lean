import ResilientCalls.Protocol.Payload

/-!
# One value for each call

A table with one entry for each of the six calls. `set` changes one entry
and leaves the others: `get_set` and `get_set_of_ne`.
-/

namespace ResilientCalls

/-- A value for each of the calls. -/
structure PerMethod (α : Type) where
  describeNamespace : α
  startWorkflow : α
  signalWorkflow : α
  readHistory : α
  pollTask : α
  completeTask : α
deriving DecidableEq, Inhabited

namespace PerMethod

variable {α : Type}

/-- The same value for every call. -/
def all (a : α) : PerMethod α := ⟨a, a, a, a, a, a⟩

/-- The value for a call. -/
def get (t : PerMethod α) : Method → α
  | .describeNamespace => t.describeNamespace
  | .startWorkflow => t.startWorkflow
  | .signalWorkflow => t.signalWorkflow
  | .readHistory => t.readHistory
  | .pollTask => t.pollTask
  | .completeTask => t.completeTask

/-- The table with another value for a call. -/
def set (t : PerMethod α) (m : Method) (a : α) : PerMethod α :=
  match m with
  | .describeNamespace => { t with describeNamespace := a }
  | .startWorkflow => { t with startWorkflow := a }
  | .signalWorkflow => { t with signalWorkflow := a }
  | .readHistory => { t with readHistory := a }
  | .pollTask => { t with pollTask := a }
  | .completeTask => { t with completeTask := a }

@[simp]
theorem get_all (a : α) (m : Method) : (all a).get m = a := by
  cases m <;> rfl

@[simp]
theorem get_set (t : PerMethod α) (m : Method) (a : α) : (t.set m a).get m = a := by
  cases m <;> rfl

theorem get_set_of_ne (t : PerMethod α) {m n : Method} (h : n ≠ m) (a : α) :
    (t.set m a).get n = t.get n := by
  cases m <;> cases n <;> simp_all [get, set]

end PerMethod

end ResilientCalls
