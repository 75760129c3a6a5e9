import ResilientCalls.Proofs.Service.Soundness
/-!
# What events answer

An event of the service answers a request, or none. Only a request that is
answered with something else than an error is served, and any other event
leaves the store alike (`serve_of_answered`, `alike_of_refused`,
`alike_of_unanswered`). What a run of events shows is collected event by
event, each seen in the store that it meets: `Store.seen`.
-/

namespace ResilientCalls

namespace StoreEvent

/-- The request that an event answers, and the answer. -/
def answered? (s : Store) : StoreEvent → Option (Request × Except Status Answer)
  | .settle r => some (r, (s.settle r).1)
  | .serve r => some (r, (Store.serve r s).1)
  | .arrive _ | .failNext _ _ | .setLatency _ _ => none

/-- The event is one of a request: it reaches the service, where it may be
given up, or it is answered. -/
inductive IsOf (r : Request) : StoreEvent → Prop
  | arrive : IsOf r (.arrive r.method)
  | settle : IsOf r (.settle r)
  | serve : IsOf r (.serve r)

variable {s : Store} {e : StoreEvent} {r q : Request}

/-- An event of a request answers no other. -/
theorem IsOf.eq_of_answered {answer : Except Status Answer} (h : e.IsOf r)
    (hanswer : e.answered? s = some (q, answer)) : q = r := by
  cases h with
  | arrive => cases hanswer
  | settle => cases hanswer; rfl
  | serve => cases hanswer; rfl

end StoreEvent

namespace Store

variable {s s' : Store} {e : StoreEvent} {r : Request}

/-- A request that settles without an error gets past the injected
failures. -/
theorem serve_of_settle {answer : Answer} (h : (s.settle r).1 = .ok answer) :
    s.settle r = serve r s := by
  unfold settle at h ⊢
  split at h
  · cases h
  · rfl

/-- **A request that is answered with something else than an error is
served.** -/
theorem serve_of_answered {answer : Answer} (h : e.answered? s = some (r, .ok answer)) :
    serve r s = (.ok answer, e.apply s) := by
  cases e with
  | settle q =>
    obtain ⟨rfl, hanswer⟩ := Prod.mk.inj (Option.some.inj h)
    have hserve := serve_of_settle hanswer
    rw [StoreEvent.apply, ← hserve, ← hanswer]
  | serve q =>
    obtain ⟨rfl, hanswer⟩ := Prod.mk.inj (Option.some.inj h)
    rw [StoreEvent.apply, ← hanswer]
  | arrive m => cases h
  | failNext m statuses => cases h
  | setLatency m latency => cases h

/-- A request that is answered with an error leaves the store alike. -/
theorem alike_of_refused {status : Status} (h : e.answered? s = some (r, .error status)) :
    s.Alike (e.apply s) := by
  cases e with
  | settle q =>
    obtain ⟨rfl, hanswer⟩ := Prod.mk.inj (Option.some.inj h)
    exact (settle_sameBut hanswer).alike
  | serve q =>
    obtain ⟨rfl, hanswer⟩ := Prod.mk.inj (Option.some.inj h)
    rw [StoreEvent.apply, serve_harmless q s status hanswer]
    exact .refl s
  | arrive m => cases h
  | failNext m statuses => cases h
  | setLatency m latency => cases h

/-- An event that answers nothing leaves the store alike. -/
theorem alike_of_unanswered (h : e.answered? s = none) : s.Alike (e.apply s) := by
  cases e with
  | settle q => cases h
  | serve q => cases h
  | arrive m => exact alike_enter s m
  | failNext m statuses => exact alike_failNext s m statuses
  | setLatency m latency => exact alike_setLatency s m latency

/-- A refusal of a settled request is an injected failure, or what serving
the request refuses it with. -/
theorem refused_cases {status : Status} (h : (s.settle r).1 = .error status) :
    status ∈ s.failures.get r.method ∨ (serve r s).1 = .error status := by
  unfold settle at h
  split at h
  · next injected rest hfailures =>
    cases h
    exact .inl (hfailures ▸ List.mem_cons_self)
  · exact .inr h

/-- A workflow that is found is stored under its id. -/
theorem mem_of_workflow? {id : String} {w : Workflow} (h : s.workflow? id = some w) :
    (id, w) ∈ s.workflows := by
  obtain ⟨before, after, hworkflows, -⟩ := List.lookup_eq_some_iff.1 h
  simp [hworkflows]

/-! ## Runs -/

/-- What can be seen of each event of a run, in the store that it meets. -/
def seen {α : Type} (f : Store → StoreEvent → Option α) : Store → List StoreEvent → List α
  | _, [] => []
  | s, e :: events => (f s e).toList ++ seen f (e.apply s) events

end Store

end ResilientCalls
