import Mathlib.Data.List.Nodup
import ResilientCalls.Client.Traffic
import ResilientCalls.Proofs.Retry.Polls
import ResilientCalls.Proofs.Service.Serving
import ResilientCalls.Service.Stub
/-!
# Side effects happen exactly once

Any number of calls by any clients share the service in memory, and what
happens is a list of events in any order: a call is issued, polled or
cancelled, time passes, failures and latencies are arranged. An attempt
may be dropped in the middle of its latency, by its timeout, by the
deadline or by a cancellation, and then be made again. What carries the
result is that the service changes only in the very poll that finds an
answer, and that this answer ends its call (`poll_effect`). So each
event answers at most one call (`play_commits`), and the service is at any
time what serving the answered calls, one after the other, has made of it.
-/

namespace ResilientCalls

/-! ## One poll of a call -/

namespace Store

/-- What a call with a result, or without one yet, has done to a store. -/
def Effect (r : Request) (s s' : Store) : CallResult → Prop
  | .answered answer => Settles r s s' (.ok answer)
  | .failed _ | .crashed _ | .unfinished => s.Alike s'

end Store

namespace Call

variable (call : Call) (now : Instant)

/-- An attempt that is started is counted, and no more. -/
theorem launch_alike (world : Store) : world.Alike (call.launch Store.stub now world).2 :=
  world.alike_enter call.request.method

/-- **An attempt that is looked at** changes nothing as long as it waits,
and settles its request when it finishes. -/
theorem look_settles (a : CallAttempt Instant) (world : Store) :
    match call.look Store.stub now a world with
    | (.waiting, after) => world.Alike after
    | (.finished result, after) => Store.Settles call.request world after result
    | (.crashed _, _) => False := by
  unfold look
  by_cases hreached : a.inner.reached now = true
  · have hlook : Store.stub.look call.request now a.inner world =
        (some (world.settle call.request).1, (world.settle call.request).2) := by
      simp only [Store.stub, if_pos hreached]
    rw [hlook]
    exact Store.settle_settles call.request world
  · -- an attempt whose answer is not there yet may be dropped by its timeout, and nothing is lost
    have hlook : Store.stub.look call.request now a.inner world = (none, world) := by
      simp only [Store.stub, if_neg hreached]
    rw [hlook]
    by_cases hcut : a.cutAt.reached now = true
    · simp only [if_pos hcut]
      exact Store.Alike.refl world
    · simp only [if_neg hcut]
      exact Store.Alike.refl world

/-- While the run of a call goes on, the store stays alike to the one
before. -/
abbrev Idles (s : Store) (_ : List RetryEvent) (_ : Run (CallAttempt Instant) Status)
    (world : Store) : Prop := s.Alike world

/-- What the run of a call that ends has done to the store. -/
abbrev EndsWell (call : Call) (s : Store) (_ : List RetryEvent) (world : Store)
    (ending : Ending Status Answer) : Prop :=
  s.Effect call.request world (Client.resultOf call.request.method ending)

variable {s world : Store} (draws : Draws) (past : List RetryEvent)
  (r : Run (CallAttempt Instant) Status)

theorem launch_keeps (i : Invocation) (h : s.Alike world) :
    (r.launch (call.work Store.stub) now i world).Keeps (Idles s) (call.EndsWell s) past :=
  h.trans (call.launch_alike now world)

/-- A failed attempt has had no effect, whatever follows it. -/
theorem afterFailedAttempt_keeps (i : Invocation) (e : Status) (h : s.Alike world) :
    (r.afterFailedAttempt draws now i e world : Turn _ _ _ Answer _).Keeps (Idles s)
      (call.EndsWell s) past := by
  unfold Run.afterFailedAttempt
  cases afterFailure r.options.policy i e now (draws i.attempt) with
  | retry delay => exact h
  | stop reason => exact h
  | overflow reason => exact h

/-- **One transition of the run of a call:** the store stays alike, or the
call is answered and its request has taken effect on it. -/
theorem step_keeps (h : s.Alike world) :
    (r.step (call.work Store.stub) draws now world).Keeps (Idles s) (call.EndsWell s) past := by
  obtain ⟨options, phase, lastError, attempts⟩ := r
  cases phase with
  | idle => exact call.launch_keeps now past _ _ h
  | attempting a i =>
    have hlook := call.look_settles now a world
    simp only [Run.step, work]
    rcases hprogress : call.look Store.stub now a world with ⟨_ | (e | answer) | message, after⟩ <;>
      simp only [hprogress] at hlook ⊢
    · exact h.trans hlook
    · exact call.afterFailedAttempt_keeps now draws past _ i e (h.trans hlook)
    · exact hlook.of_alike h
  | backingOff timer i =>
    by_cases hreached : timer.reached now = true
    · simp only [Run.step, if_pos hreached]
      exact call.launch_keeps now past _ _ h
    · simp only [Run.step, if_neg hreached]
      exact h
  | settled => exact h

/-- **One poll of a call,** its token cancelled or not, has the effect that
its ending tells. -/
theorem poll_effect (cancelled : Bool) (s : Store) :
    let turn := r.poll (call.work Store.stub) draws now cancelled s
    s.Effect call.request turn.world (Client.resultOf call.request.method turn.result) := by
  have hleaves : (r.poll (call.work Store.stub) draws now cancelled s).Leaves (Idles s)
      (call.EndsWell s) [] :=
    -- a cancelled token ends the call before the attempt is looked at
    Run.poll_leaves (fun past r world h => call.step_keeps now draws past r h)
      (fun _ _ _ _ h _ => h) (Store.Alike.refl s)
  simp only []
  rcases hresult : (r.poll (call.work Store.stub) draws now cancelled s).result with
    _ | outcome | message <;> simp only [Turn.Leaves, hresult] at hleaves
  all_goals exact hleaves

end Call

/-! ## Events -/

/-- A call that has returned an answer: its place among the calls, its
request and the answer. -/
structure Commit where
  place : Nat
  request : Request
  answer : Answer

/-- Something that happens to the service or to its clients. -/
inductive ServiceEvent where
  /-- Something that a client does; the jitter is drawn anew. -/
  | act (client : Client) (draws : Draws) (action : TrafficAction)
  /-- The next calls are told to fail. -/
  | failNext (m : Method) (statuses : List Status)
  /-- Answers are told to come late. -/
  | setLatency (m : Method) (latency : Duration)

/-- The request of an event that issues a call. -/
def ServiceEvent.issued? : ServiceEvent → Option Request
  | .act _ _ (.issue request _ _) => some request
  | _ => none

namespace CallTask

variable {τ : Type}

/-- The request of a call that was sent. -/
def request? : CallTask τ → Option Request
  | rejected _ => none
  | underWay call _ _ _ | ended call _ _ => some call.request

/-- What a call at a place has committed, once it has an answer. -/
def commit? (place : Nat) : CallTask τ → Option Commit
  | ended call _ (.answered answer) => some ⟨place, call.request, answer⟩
  | _ => none

@[simp]
theorem request?_cancel (task : CallTask τ) : task.cancel.request? = task.request? := by
  cases task <;> rfl

@[simp]
theorem commit?_cancel (task : CallTask τ) (i : Nat) : task.cancel.commit? i = task.commit? i := by
  cases task <;> rfl

/-- A commit is of the place and of the request of its call. -/
theorem eq_of_commit? {task : CallTask τ} {i : Nat} {c : Commit} (h : task.commit? i = some c) :
    c.place = i ∧ task.request? = some c.request := by
  cases task with
  | rejected e => cases h
  | underWay call begunAt cancelled run => cases h
  | ended call run result =>
    cases result with
    | answered answer => cases h; exact ⟨rfl, rfl⟩
    | failed e => cases h
    | crashed message => cases h
    | unfinished => cases h

end CallTask

namespace Traffic

section Commits

variable {σ τ : Type}

/-- No calls have been issued yet. -/
def opened (now : Instant) (world : σ) : Traffic σ τ := ⟨now, world, []⟩

/-- What the call at a place has committed. -/
def commitAt (t : Traffic σ τ) (i : Nat) : Option Commit := t.tasks[i]?.bind (CallTask.commit? i)

/-- What the call at a place has committed since `t`. -/
def newCommitAt (t t' : Traffic σ τ) (i : Nat) : Option Commit :=
  match t.commitAt i with
  | none => t'.commitAt i
  | some _ => none

/-- What has been committed since `t`. -/
def newCommits (t t' : Traffic σ τ) : List Commit :=
  (List.range t'.tasks.length).filterMap (t.newCommitAt t')

end Commits

/-- What an event makes of the calls and the service. -/
def play (t : Traffic Store Instant) : ServiceEvent → Traffic Store Instant
  | .act client draws action => (t.act client Store.stub draws action).1
  | .failNext m statuses => { t with world := t.world.failNext m statuses }
  | .setLatency m latency => { t with world := t.world.setLatency m latency }

/-- What events make of them, one after the other. -/
def playAll (t : Traffic Store Instant) (events : List ServiceEvent) : Traffic Store Instant :=
  events.foldl play t

/-- What is committed by events, in the order of commitment. -/
def commits : Traffic Store Instant → List ServiceEvent → List Commit
  | _, [] => []
  | t, e :: events => t.newCommits (t.play e) ++ commits (t.play e) events

end Traffic

/-! ## What an event may do -/

/-- The only place of a range at which something is found. -/
theorem filterMap_range_eq {β : Type} {f : Nat → Option β} {i : Nat} {b : β} (hi : f i = some b)
    (hothers : ∀ j, j ≠ i → f j = none) {n : Nat} (hn : i < n) :
    (List.range n).filterMap f = [b] := by
  induction n with
  | zero => omega
  | succ n ih =>
    rw [List.range_succ, List.filterMap_append]
    rcases Nat.lt_or_eq_of_le (Nat.lt_succ_iff.1 hn) with hlt | rfl
    · simp [ih hlt, hothers n (Nat.ne_of_gt hlt)]
    · have hnone : (List.range i).filterMap f = [] :=
        List.filterMap_eq_nil_iff.2 fun j hj => hothers j (Nat.ne_of_lt (List.mem_range.1 hj))
      simp [hnone, hi]

namespace Traffic

variable {t t' : Traffic Store Instant}

/-- An event commits nothing and leaves the store alike, or it commits one
call that was not committed before and has its effect on the store. -/
inductive Commits (t t' : Traffic Store Instant) : List Commit → Prop
  | nothing (halike : t.world.Alike t'.world) (hsame : ∀ i, t'.commitAt i = t.commitAt i) :
      Commits t t' []
  | one (c : Commit) (hbefore : t.commitAt c.place = none) (hafter : t'.commitAt c.place = some c)
      (hothers : ∀ i, i ≠ c.place → t'.commitAt i = t.commitAt i)
      (hserved : Store.Settles c.request t.world t'.world (.ok c.answer)) : Commits t t' [c]

/-- What an event commits is what is new after it. -/
theorem Commits.newCommits_eq {cs : List Commit} (h : t.Commits t' cs) : t.newCommits t' = cs := by
  cases h with
  | nothing halike hsame =>
    refine List.filterMap_eq_nil_iff.2 ?_
    intro i _
    rw [newCommitAt, hsame i]
    cases t.commitAt i <;> rfl
  | one c hbefore hafter hothers hserved =>
    refine filterMap_range_eq (i := c.place) ?_ ?_ ?_
    · rw [newCommitAt, hbefore, hafter]
    · intro j hj
      rw [newCommitAt, hothers j hj]
      cases t.commitAt j <;> rfl
    · -- A place that has committed something is one of the calls.
      by_contra hlt
      rw [commitAt, List.getElem?_eq_none (Nat.le_of_not_lt hlt)] at hafter
      cases hafter

/-- What a call at a place has done to the store: its commit has taken
effect, or nothing has. -/
def Did (i : Nat) (s s' : Store) (task : CallTask Instant) : Prop :=
  match task.commit? i with
  | none => s.Alike s'
  | some c => Store.Settles c.request s s' (.ok c.answer)

/-- **A call that is polled** keeps its request and has done what it has
committed. -/
theorem pollTask_did (client : Client) (draws : Draws) (now begunAt : Instant) (call : Call)
    (cancelled : Bool) (run : Run (CallAttempt Instant) Status) (s : Store) (i : Nat) :
    let (task, s', _) := pollTask client Store.stub draws now call begunAt cancelled run s
    task.request? = some call.request ∧ Did i s s' task := by
  have heffect := call.poll_effect now draws run cancelled s
  simp only [pollTask] at heffect ⊢
  revert heffect
  cases Client.resultOf call.request.method
    (run.poll (call.work Store.stub) draws now cancelled s).result with
  | answered answer => exact fun heffect => ⟨rfl, heffect⟩
  | failed e => exact fun heffect => ⟨rfl, heffect⟩
  | crashed message => exact fun heffect => ⟨rfl, heffect⟩
  | unfinished => exact fun heffect => ⟨rfl, heffect⟩

/-- An event that puts a call at a place commits what the call has done. -/
theorem exists_commits {i : Nat} {task : CallTask Instant} (hbefore : t.commitAt i = none)
    (hplace : t'.tasks[i]? = some task) (hothers : ∀ j, j ≠ i → t'.tasks[j]? = t.tasks[j]?)
    (hdid : Did i t.world t'.world task) : ∃ cs, t.Commits t' cs := by
  have hafter : t'.commitAt i = task.commit? i := by rw [commitAt, hplace]; rfl
  have hrest : ∀ j, j ≠ i → t'.commitAt j = t.commitAt j := by
    intro j hj
    rw [commitAt, hothers j hj, commitAt]
  rcases hcommit : task.commit? i with _ | c
  · refine ⟨[], .nothing (by simpa only [Did, hcommit] using hdid) ?_⟩
    intro j
    by_cases hj : j = i
    · rw [hj, hafter, hcommit, hbefore]
    · exact hrest j hj
  · obtain ⟨rfl, -⟩ := CallTask.eq_of_commit? hcommit
    exact ⟨[c], .one c hbefore (hafter.trans hcommit) hrest
      (by simpa only [Did, hcommit] using hdid)⟩

theorem issue_commits (client : Client) (draws : Draws) (request : Request) (o : CallOptions)
    (cancelled : Bool) (t : Traffic Store Instant) :
    ∃ cs, t.Commits (t.issue client Store.stub draws request o cancelled).1 cs := by
  have hbefore : t.commitAt t.tasks.length = none := by
    rw [commitAt, List.getElem?_eq_none (Nat.le_refl _)]
    rfl
  have hplace (task : CallTask Instant) : (t.tasks ++ [task])[t.tasks.length]? = some task :=
    List.getElem?_concat_length
  have hothers (task : CallTask Instant) : ∀ j, j ≠ t.tasks.length →
      (t.tasks ++ [task])[j]? = t.tasks[j]? := by
    intro j hj
    rcases Nat.lt_or_gt_of_ne hj with hlt | hgt
    · exact List.getElem?_append_left hlt
    · rw [List.getElem?_eq_none (by simp; omega), List.getElem?_eq_none (by omega)]
  unfold issue
  cases client.prepare request o with
  | error e => exact exists_commits hbefore (hplace _) (hothers _) (Store.Alike.refl _)
  | ok options =>
    exact exists_commits hbefore (hplace _) (hothers _)
      (pollTask_did client draws t.now t.now (client.callOf request options t.now) cancelled
        (.new options) t.world t.tasks.length).2

theorem pollAt_commits (client : Client) (draws : Draws) (i : Nat) (t : Traffic Store Instant) :
    ∃ cs, t.Commits (t.pollAt client Store.stub draws i).1 cs := by
  unfold pollAt
  split
  · rename_i call begunAt cancelled run htask
    have hlt : i < t.tasks.length := (List.getElem?_eq_some_iff.1 htask).1
    refine exists_commits (i := i) ?_ (List.getElem?_set_self hlt) ?_
      (pollTask_did client draws t.now begunAt call cancelled run t.world i).2
    · rw [commitAt, htask]
      rfl
    · exact fun j hj => List.getElem?_set_ne (Ne.symm hj)
  · exact ⟨[], .nothing (Store.Alike.refl _) fun _ => rfl⟩

/-- **An event commits at most one call,** and the store changes with it
only. -/
theorem play_commits (t : Traffic Store Instant) (e : ServiceEvent) :
    t.Commits (t.play e) (t.newCommits (t.play e)) := by
  suffices h : ∃ cs, t.Commits (t.play e) cs by
    obtain ⟨cs, hcs⟩ := h
    rw [hcs.newCommits_eq]
    exact hcs
  cases e with
  | failNext m statuses => exact ⟨[], .nothing (Store.alike_failNext _ _ _) fun _ => rfl⟩
  | setLatency m latency => exact ⟨[], .nothing (Store.alike_setLatency _ _ _) fun _ => rfl⟩
  | act client draws action =>
    cases action with
    | issue request o cancelled => exact issue_commits client draws request o cancelled t
    | poll i => exact pollAt_commits client draws i t
    | wait d => exact ⟨[], .nothing (Store.Alike.refl _) fun _ => rfl⟩
    | cancel i =>
      refine ⟨[], .nothing (Store.Alike.refl _) ?_⟩
      intro j
      -- a cancellation is only noted; the call sees it at its next poll
      simp only [play, act, commitAt, List.getElem?_modify]
      cases t.tasks[j]? with
      | none => rfl
      | some task => by_cases hij : i = j <;> simp [hij]

/-! ## The requests of the calls -/

/-- Calls at their places, each with the request it was issued with. -/
structure Issued (requests : List Request) (tasks : List (CallTask Instant)) : Prop where
  length : tasks.length = requests.length
  request : ∀ (i : Nat) (task : CallTask Instant) (r : Request), tasks[i]? = some task →
    task.request? = some r → requests[i]? = some r

variable {requests : List Request} {tasks : List (CallTask Instant)}

theorem Issued.append (h : Issued requests tasks) {task : CallTask Instant} {request : Request}
    (hrequest : ∀ r, task.request? = some r → request = r) :
    Issued (requests ++ [request]) (tasks ++ [task]) := by
  refine ⟨by simp [h.length], ?_⟩
  intro i found r hfound hr
  rcases Nat.lt_trichotomy i tasks.length with hlt | heq | hgt
  · rw [List.getElem?_append_left hlt] at hfound
    rw [List.getElem?_append_left (h.length ▸ hlt)]
    exact h.request i found r hfound hr
  · subst heq
    rw [List.getElem?_concat_length] at hfound
    cases hfound
    rw [h.length, List.getElem?_concat_length, hrequest r hr]
  · rw [List.getElem?_eq_none (by simp; omega)] at hfound
    cases hfound

/-- A call that goes on keeps its request. -/
theorem Issued.set (h : Issued requests tasks) {i : Nat} {old task : CallTask Instant}
    (hold : tasks[i]? = some old) (hsame : task.request? = old.request?) :
    Issued requests (tasks.set i task) := by
  refine ⟨by simp [h.length], ?_⟩
  intro j found r hfound hr
  by_cases hij : i = j
  · subst hij
    rw [List.getElem?_set_self (List.getElem?_eq_some_iff.1 hold).1] at hfound
    cases hfound
    exact h.request i old r hold (hsame ▸ hr)
  · rw [List.getElem?_set_ne hij] at hfound
    exact h.request j found r hfound hr

theorem Issued.cancel (h : Issued requests tasks) (i : Nat) :
    Issued requests (tasks.modify i CallTask.cancel) := by
  refine ⟨by simp [h.length], ?_⟩
  intro j found r hfound hr
  rw [List.getElem?_modify] at hfound
  rcases hold : tasks[j]? with _ | old
  · rw [hold] at hfound
    cases hfound
  · refine h.request j old r hold ?_
    by_cases hij : i = j <;> simp only [hold, hij, if_true, if_false, Option.map_some,
      Option.map_eq_map, Option.some.injEq] at hfound <;> subst hfound
    · exact CallTask.request?_cancel old ▸ hr
    · exact hr

/-- **An event issues its request, if it has one,** and no call changes the
one it has. -/
theorem play_issued (h : Issued requests t.tasks) (e : ServiceEvent) :
    Issued (requests ++ e.issued?.toList) (t.play e).tasks := by
  have hsame : requests ++ [] = requests := List.append_nil _
  cases e with
  | failNext m statuses => exact hsame.symm ▸ h
  | setLatency m latency => exact hsame.symm ▸ h
  | act client draws action =>
    cases action with
    | wait d => exact hsame.symm ▸ h
    | cancel i => exact hsame.symm ▸ h.cancel i
    | issue request o cancelled =>
      simp only [play, act, issue]
      cases client.prepare request o with
      | error e =>
        refine h.append ?_
        intro r hr
        cases hr
      | ok options =>
        refine h.append ?_
        intro r hr
        have hkept := (pollTask_did client draws t.now t.now (client.callOf request options t.now)
          cancelled (.new options) t.world 0).1
        exact Option.some.inj (hkept.symm.trans hr)
    | poll i =>
      simp only [play, act, pollAt]
      split
      · rename_i call begunAt cancelled run htask
        exact hsame.symm ▸ h.set htask
          (pollTask_did client draws t.now begunAt call cancelled run t.world i).1
      · exact hsame.symm ▸ h

/-! ## Any number of events -/

/-- Each call that has returned an answer is committed once, and the store
is what serving the committed requests, one after the other and each once,
has made of `s`, with the answers that the calls have returned. -/
structure ExactlyOnce (s : Store) (committed : List Commit) (t : Traffic Store Instant) :
    Prop where
  once : (committed.map Commit.place).Nodup
  returned : ∀ c, c ∈ committed ↔ t.commitAt c.place = some c
  answers : (Store.serveAll (committed.map Commit.request) s).1 =
    committed.map fun c => .ok c.answer
  effects : (Store.serveAll (committed.map Commit.request) s).2.Alike t.world

variable {s : Store} {committed : List Commit}

theorem exactlyOnce_opened (s : Store) (now : Instant) : ExactlyOnce s [] (opened now s) where
  once := List.nodup_nil
  returned c := by simp [opened, commitAt]
  answers := rfl
  effects := Store.Alike.refl s

/-- What an event commits is served after all that is committed before. -/
theorem ExactlyOnce.commits {cs : List Commit} (h : ExactlyOnce s committed t)
    (hcommits : t.Commits t' cs) : ExactlyOnce s (committed ++ cs) t' := by
  cases hcommits with
  | nothing halike hsame =>
    rw [List.append_nil]
    refine ⟨h.once, ?_, h.answers, h.effects.trans halike⟩
    intro c
    rw [h.returned c, hsame]
  | one c hbefore hafter hothers hserved =>
    have hfresh : ∀ d ∈ committed, d.place ≠ c.place := by
      intro d hd hplace
      rw [h.returned d, hplace, hbefore] at hd
      cases hd
    -- the service reads no more of the store than what serving the others has made of it
    have hserve := hserved.of_alike h.effects
    refine ⟨?_, ?_, ?_, ?_⟩
    · rw [List.map_append, List.map_singleton, ← List.concat_eq_append]
      refine List.Nodup.concat ?_ h.once
      rw [List.mem_map]
      rintro ⟨d, hd, hplace⟩
      exact hfresh d hd hplace
    · intro d
      rw [List.mem_append, List.mem_singleton]
      by_cases hd : d.place = c.place
      · rw [hd, hafter, Option.some.injEq]
        constructor
        · rintro (hmem | rfl)
          · exact absurd hd (hfresh d hmem)
          · rfl
        · exact fun heq => .inr heq.symm
      · rw [hothers _ hd, h.returned d]
        exact or_iff_left fun heq => hd (congrArg Commit.place heq)
    · rw [List.map_append, Store.serveAll_append, List.map_append, h.answers]
      simp only [List.map_cons, List.map_nil, Store.serveAll, hserve.1]
    · rw [List.map_append, Store.serveAll_append]
      exact hserve.2

/-- **A run of events** keeps what is exactly once exactly once. -/
theorem ExactlyOnce.playAll (h : ExactlyOnce s committed t) (events : List ServiceEvent) :
    ExactlyOnce s (committed ++ t.commits events) (t.playAll events) := by
  induction events generalizing committed t with
  | nil => simpa only [Traffic.commits, Traffic.playAll, List.foldl_nil, List.append_nil] using h
  | cons e events ih =>
    have hrest := ih (h.commits (t.play_commits e))
    rwa [List.append_assoc] at hrest

/-- A run of events issues the requests of its events. -/
theorem playAll_issued (h : Issued requests t.tasks) (events : List ServiceEvent) :
    Issued (requests ++ events.filterMap ServiceEvent.issued?) (t.playAll events).tasks := by
  induction events generalizing requests t with
  | nil => simpa [playAll] using h
  | cons e events ih =>
    have hrest := ih (play_issued h e)
    rw [List.append_assoc] at hrest
    cases hissued : e.issued? <;> simpa [hissued, playAll] using hrest

end Traffic

/-- **Side effects are exactly-once.** Whatever happens to calls that share
the service, in whatever order: the service holds at any time what serving
the requests of the calls that have returned an answer has made of it, in
the order in which they were answered and each once. Such a call has
returned what its request was served with, and the request is the one it
was issued with. Each further event answers one call and serves its
request, or answers no call and leaves workflows and tasks as they are. -/
theorem effects_exactlyOnce (s : Store) (now : Instant) (events : List ServiceEvent) :
    let begun : Traffic Store Instant := .opened now s
    let t := begun.playAll events
    Traffic.ExactlyOnce s (begun.commits events) t ∧
      (∀ c ∈ begun.commits events,
        (events.filterMap ServiceEvent.issued?)[c.place]? = some c.request) ∧
      ∀ e, t.Commits (t.play e) (t.newCommits (t.play e)) := by
  intro begun t
  have honce : Traffic.ExactlyOnce s (begun.commits events) t :=
    (Traffic.exactlyOnce_opened s now).playAll events
  have hissued : Traffic.Issued (events.filterMap ServiceEvent.issued?) t.tasks := by
    have hnone : Traffic.Issued [] begun.tasks := by
      refine ⟨rfl, ?_⟩
      intro i task r htask
      cases htask
    exact Traffic.playAll_issued hnone events
  refine ⟨honce, ?_, t.play_commits⟩
  intro c hc
  have hat := (honce.returned c).1 hc
  rw [Traffic.commitAt, Option.bind_eq_some_iff] at hat
  obtain ⟨task, htask, hcommit⟩ := hat
  exact hissued.request c.place task c.request htask (CallTask.eq_of_commit? hcommit).2

end ResilientCalls
