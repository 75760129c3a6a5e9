import ResilientCalls.Retry.Handle

/-!
# Spawned runs on one runtime

Runs that are spawned from the same options share the runtime, the clock
and the token of the caller, and nothing else. What happens is a list of
actions in any order: a run is spawned, the runtime polls a run, a handle
cancels its run or is dropped, the caller's token is cancelled, time
passes. A run that is spawned after the caller's token was cancelled is
cancelled from its start, and one that has ended is not polled again.
-/

namespace ResilientCalls

/-- What a run has come to; nothing while it is pending. -/
def Ending.final? {ε α : Type} : Ending ε α → Option (Ending ε α)
  | .pending => none
  | ending => some ending

namespace Handle

variable {σ τ ε α : Type}

/-- The runtime polls the run now, unless it has ended. -/
def visit [Failure ε] (w : Work σ τ ε α) (draws : Draws) (now : Instant)
    (h : Handle σ τ ε α) : Handle σ τ ε α :=
  match h.course.ending with
  | .pending => { h with course := { h.course with now := now }.pollNow w draws h.cancelledFrom }
  | _ => h

/-- What awaiting the handle gives; nothing before the run has ended. -/
def awaited? (h : Handle σ τ ε α) : Option (Ending ε α) := h.course.ending.final?

end Handle

/-- A spawned run with the work that it repeats. -/
structure Member (σ τ ε α : Type) where
  work : Work σ τ ε α
  draws : Draws
  handle : Handle σ τ ε α

/-- The runs spawned from the same options, in the order in which they
were spawned. -/
structure Family (σ τ ε α : Type) where
  options : RetryOptions
  now : Instant
  /-- The caller's token has been cancelled. -/
  callerCancelled : Bool
  members : List (Member σ τ ε α)

/-- Something that happens to a family. -/
inductive FamilyAction (σ τ ε α : Type) where
  /-- A run of some work is spawned, in a world of its own. -/
  | spawn (work : Work σ τ ε α) (draws : Draws) (world : σ)
  | poll (member : Nat)
  | cancel (member : Nat)
  | drop (member : Nat)
  | cancelCaller
  | wait (d : Duration)

namespace Member

variable {σ τ ε α : Type}

/-- The member with its handle changed. -/
def onHandle (change : Handle σ τ ε α → Handle σ τ ε α) (m : Member σ τ ε α) :
    Member σ τ ε α :=
  { m with handle := change m.handle }

/-- The runtime polls the member. -/
def visit [Failure ε] (now : Instant) (m : Member σ τ ε α) : Member σ τ ε α :=
  m.onHandle (Handle.visit m.work m.draws now)

end Member

namespace Family

variable {σ τ ε α : Type}

/-- Options from which nothing has been spawned. -/
def new (options : RetryOptions) (now : Instant) : Family σ τ ε α := ⟨options, now, false, []⟩

/-- A run that is spawned now. Its own token is a child of the caller's, so
it begins cancelled if that one is. -/
def spawned (work : Work σ τ ε α) (draws : Draws) (world : σ) (f : Family σ τ ε α) :
    Member σ τ ε α :=
  let handle := Handle.spawn f.options f.now world
  ⟨work, draws, if f.callerCancelled then handle.cancelCaller f.now else handle⟩

/-- **One action.** -/
def act [Failure ε] (f : Family σ τ ε α) : FamilyAction σ τ ε α → Family σ τ ε α
  | .spawn work draws world => { f with members := f.members ++ [f.spawned work draws world] }
  | .poll i => { f with members := f.members.modify i (·.visit f.now) }
  | .cancel i => { f with members := f.members.modify i (·.onHandle (·.cancel f.now)) }
  | .drop i => { f with members := f.members.modify i (·.onHandle (·.drop f.now)) }
  | .cancelCaller =>
    { f with
      callerCancelled := true
      members := f.members.map (·.onHandle (·.cancelCaller f.now)) }
  | .wait d => { f with now := f.now.plus d }

/-- Actions in a row. -/
def afterAll [Failure ε] (f : Family σ τ ε α) (actions : List (FamilyAction σ τ ε α)) :
    Family σ τ ε α :=
  actions.foldl act f

end Family

end ResilientCalls
