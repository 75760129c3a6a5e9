import Mathlib.Algebra.GroupWithZero.Nat
import ResilientCalls.Client.Traffic
import ResilientCalls.Proofs.Service.Drawing
/-!
# Calls that share injected failures

Any number of calls describe the same namespace through one client, while
the service has failures to give out. The calls race for the failures, and
in the end it does not matter who draws which. What the service has been
asked for and the failures that are left add up, at any time, to what they
were at first and the calls that are in flight or answered
(`Sharing.balance`); and the failures that the log shows as retried are
those that are gone, in their order (`Sharing.drawn`). A call that is
polled when something is due lowers what is ahead of all calls together,
so a schedule that attends to every call brings all of them to their
answers.
-/

namespace ResilientCalls

/-! ## The log -/

/-- The text of the failure that a record shows as retried. -/
def LogRecord.retried? (r : LogRecord) : Option String :=
  if r.message = "call failed, retrying" then r.fields.lookup "error" else none

/-- The record of an event shows what the event retries. -/
theorem RetryEvent.retried?_record (e : RetryEvent) : e.record.retried? = e.retried? := by
  cases e <;> simp [record, LogRecord.retried?, retried?, List.lookup_cons]

theorem filterMap_retried?_record (events : List RetryEvent) :
    (events.map RetryEvent.record).filterMap LogRecord.retried? =
      events.filterMap RetryEvent.retried? := by
  rw [List.filterMap_map]
  exact List.filterMap_congr fun e _ => e.retried?_record

/-- What is logged around a run retries nothing. -/
theorem Client.retried?_sending (c : Client) (m : Method) : (c.sending m).retried? = none := by
  simp [sending, LogRecord.retried?]

theorem Client.filterMap_retried?_settling (c : Client) (m : Method) (elapsed : Duration)
    (attempts : Nat) (result : CallResult) :
    (c.settling m elapsed attempts result).filterMap LogRecord.retried? = [] := by
  cases result <;> simp [settling, LogRecord.retried?]

/-! ## Preparing the calls -/

namespace RetryPolicy.Outlasts

variable {client : Client} {k : Nat}

/-- A description is never refused by its client. -/
theorem prepare_describe (h : client.policy.Outlasts k) (nspace : String) :
    client.prepare (.describe ⟨nspace⟩) .none = .ok ⟨client.policy, none, false⟩ := by
  have hbounded : client.policy.validateBounded false = .ok () := by
    have hpos : 0 < client.policy.maximumAttempts := Nat.lt_of_le_of_lt (Nat.zero_le k) h.enough
    simp [RetryPolicy.validateBounded, RetryPolicy.isBounded, hpos]
  simp only [Client.prepare, Client.checkRequest, CallOptions.none, RetryOptions.new, h.valid,
    Option.isSome_none, hbounded]
  rfl

/-- Without an expiration the call has no deadline. -/
theorem callOf_describe (h : client.policy.Outlasts k) (nspace : String) (now : Instant) :
    client.callOf (.describe ⟨nspace⟩) ⟨client.policy, none, false⟩ now =
      describing nspace client.config.rpcTimeout := by
  simp only [Client.callOf, Deadline.effective, h.unlimited]
  rfl

end RetryPolicy.Outlasts

/-! ## Calls at their places -/

namespace CallTask

/-- The descriptions that a call has asked for without drawing a
failure. -/
def unrequited : CallTask Instant → Nat
  | .rejected _ => 0
  | .underWay _ _ _ run => run.inFlight
  | .ended _ _ _ => 1

/-- The transitions that a call has before it, if it draws no failure. -/
def ahead : CallTask Instant → Nat
  | .underWay _ _ _ run => 2 - run.inFlight
  | .rejected _ | .ended _ _ _ => 0

/-- At `now`, with so many injected failures left: the call describes the
namespace, and lasts or has its answer, after which none are left. -/
def Shares (nspace : String) (timeout : Duration) (o : RetryOptions) (k left : Nat)
    (now : Instant) : CallTask Instant → Prop
  | .rejected _ => False
  | .underWay call _ _ run => call = describing nspace timeout ∧ run.Lasts o k left now
  | .ended _ _ result => result = .answered (Store.description nspace) ∧ left = 0

end CallTask

theorem Run.inFlight_le_one (r : Run (CallAttempt Instant) Status) : r.inFlight ≤ 1 := by
  unfold inFlight
  split <;> omega

section

variable (nspace : String) (timeout : Duration) (o : RetryOptions) (k : Nat) (now : Instant)
  (s : Store) (flying : Nat)

/-- What a call that goes on, with `flying` attempts in flight before, has
made of the store `s`, and logged. -/
structure Advances (task : CallTask Instant) (s' : Store) (log : List LogRecord) : Prop where
  shares : task.Shares nspace timeout o k s'.left.length now
  describes : s'.Describes nspace timeout
  suffix : s'.left <:+ s.left
  balance : s'.asked + s'.left.length + flying = s.asked + s.left.length + task.unrequited
  drawn : log.filterMap LogRecord.retried? ++ s'.left.map Status.text = s.left.map Status.text
  effort : task.ahead + 2 * s'.left.length < 2 - flying + 2 * s.left.length

end

variable {nspace : String} {timeout : Duration} {o : RetryOptions} {k : Nat} {now : Instant}
  {s : Store}

/-- **A call that is polled** stays as it is if nothing is due, or
advances. -/
theorem pollTask_advances (client : Client) (draws : Draws) (begunAt : Instant) (cancelled : Bool)
    {run : Run (CallAttempt Instant) Status} (hp : o.policy.Outlasts k) (ho : o.deadline = none)
    (htoken : o.hasToken = false) (hlasts : run.Lasts o k s.left.length now)
    (hdescribes : s.Describes nspace timeout)
    (htolerates : ∀ status ∈ s.left, o.policy.Tolerates status) :
    let call := describing nspace timeout
    let polled := Traffic.pollTask client Store.stub draws now call begunAt cancelled run s
    ((run.phase ≠ .idle ∧ ¬ run.IsDue call now) ∧
        polled = (.underWay call begunAt cancelled run, s, [])) ∨
      Advances nspace timeout o k now s run.inFlight polled.1 polled.2.1 polled.2.2 := by
  intro call polled
  rcases run.poll_drawing hp ho htoken draws cancelled hlasts hdescribes htolerates with
    ⟨hdue, hpoll⟩ | hleaves
  · left
    refine ⟨hdue, ?_⟩
    simp only [polled, Traffic.pollTask, call, hpoll]
    rfl
  · right
    have hflying := run.inFlight_le_one
    rcases hturn : run.poll ((describing nspace timeout).work Store.stub) draws now cancelled s
      with ⟨r', s', events, _ | (e | answer) | message⟩ <;>
      simp only [Turn.Leaves, hturn, List.nil_append] at hleaves <;>
      simp only [polled, Traffic.pollTask, call, hturn, Client.resultOf]
    · have hafter := r'.inFlight_le_one
      have heffort := hleaves.effort
      refine ⟨⟨rfl, hleaves.lasts⟩, hleaves.describes, hleaves.suffix, hleaves.balance, ?_, ?_⟩
      · rw [filterMap_retried?_record]
        exact hleaves.drawn
      · simp only [CallTask.ahead]
        omega
    · cases hleaves.answer
    · obtain ⟨hanswer, hdescribes', hnone, hbalance, hdrawn⟩ := hleaves
      obtain rfl : answer = Store.description nspace := by
        cases hanswer
        rfl
      refine ⟨⟨rfl, by rw [hnone]; rfl⟩, hdescribes', ?_, ?_, ?_, ?_⟩
      · rw [hnone]
        exact List.nil_suffix
      · simpa [hnone, CallTask.unrequited] using hbalance
      · rw [List.filterMap_append, filterMap_retried?_record,
          Client.filterMap_retried?_settling, hnone, List.append_nil, List.map_nil, List.append_nil]
        exact hdrawn
      · simp only [CallTask.ahead, hnone, List.length_nil]
        omega
    · cases hleaves.answer

/-! ## All calls together -/

/-- A sum over a list with one entry changed. -/
theorem sum_map_set {β : Type} (f : β → Nat) {l : List β} {i : Nat} {a : β} (h : l[i]? = some a)
    (b : β) : ((l.set i b).map f).sum + f a = (l.map f).sum + f b := by
  induction l generalizing i with
  | nil => cases h
  | cons c l ih =>
    cases i with
    | zero =>
      obtain rfl : c = a := by simpa using h
      simp only [List.set_cons_zero, List.map_cons, List.sum_cons]
      omega
    | succ i =>
      have hrest := ih (i := i) (by simpa using h)
      simp only [List.set_cons_succ, List.map_cons, List.sum_cons]
      omega

/-- A call shares also later, and with fewer failures left. -/
theorem CallTask.Shares.mono {task : CallTask Instant} {left fewer : Nat} {later : Instant}
    (h : task.Shares nspace timeout o k left now) (hleft : fewer ≤ left)
    (hlater : now.nanos ≤ later.nanos) : task.Shares nspace timeout o k fewer later := by
  cases task with
  | rejected e => exact h
  | underWay call begunAt cancelled run => exact ⟨h.1, h.2.mono hleft hlater⟩
  | ended call run result => exact ⟨h.1, Nat.le_zero.1 (h.2 ▸ hleft)⟩

/-- The action is one of calls that describe a namespace, have no deadline
and are not cancelled. -/
def TrafficAction.Describes (nspace : String) : TrafficAction → Prop
  | .issue request options cancelled =>
    request = .describe ⟨nspace⟩ ∧ options = .none ∧ cancelled = false
  | .poll _ | .wait _ => True
  | .cancel _ => False

namespace Traffic

/-- The transitions that all calls have before them, those for the failures
that are left included. -/
def ahead (t : Traffic Store Instant) : Nat :=
  (t.tasks.map CallTask.ahead).sum + 2 * t.world.left.length

/-- **What calls that describe the same namespace share,** since the store
was `s₀`. -/
structure Sharing (nspace : String) (timeout : Duration) (o : RetryOptions) (s₀ : Store)
    (t : Traffic Store Instant) (log : List LogRecord) : Prop where
  calls : ∀ task ∈ t.tasks,
    task.Shares nspace timeout o s₀.left.length t.world.left.length t.now
  describes : t.world.Describes nspace timeout
  suffix : t.world.left <:+ s₀.left
  balance : t.world.asked + t.world.left.length =
    s₀.asked + s₀.left.length + (t.tasks.map CallTask.unrequited).sum
  drawn : log.filterMap LogRecord.retried? ++ t.world.left.map Status.text =
    s₀.left.map Status.text

variable {s₀ s' : Store} {t : Traffic Store Instant} {log new : List LogRecord}
  {task : CallTask Instant}

/-- Time that passes changes nothing. -/
theorem Sharing.wait (h : t.Sharing nspace timeout o s₀ log) (d : Duration) :
    ({ t with now := t.now.plus d } : Traffic Store Instant).Sharing nspace timeout o s₀ log :=
  ⟨fun task hmem => (h.calls task hmem).mono le_rfl (Nat.le_add_right _ _), h.describes, h.suffix,
    h.balance, h.drawn⟩

/-- **A call that advances at its place** keeps what is shared, and lowers
what is ahead. -/
theorem Sharing.set (h : t.Sharing nspace timeout o s₀ log) {i : Nat} {call : Call}
    {begunAt : Instant} {cancelled : Bool} {run : Run (CallAttempt Instant) Status}
    (hi : t.tasks[i]? = some (.underWay call begunAt cancelled run))
    (hadvances : Advances nspace timeout o s₀.left.length t.now t.world run.inFlight task s' new) :
    let t' : Traffic Store Instant := { t with world := s', tasks := t.tasks.set i task }
    t'.Sharing nspace timeout o s₀ (log ++ new) ∧ t'.ahead < t.ahead := by
  intro t'
  have hsum := sum_map_set CallTask.unrequited hi task
  have hahead := sum_map_set CallTask.ahead hi task
  have hbefore := h.balance
  have hafter := hadvances.balance
  have heffort := hadvances.effort
  change _ + run.inFlight = _ at hsum
  change _ + (2 - run.inFlight) = _ at hahead
  refine ⟨⟨?_, hadvances.describes, hadvances.suffix.trans h.suffix, ?_, ?_⟩, ?_⟩
  · intro other hmem
    rcases List.mem_or_eq_of_mem_set hmem with hold | rfl
    · exact (h.calls other hold).mono hadvances.suffix.length_le le_rfl
    · exact hadvances.shares
  · change s'.asked + s'.left.length = _ + ((t.tasks.set i task).map CallTask.unrequited).sum
    omega
  · rw [List.filterMap_append, List.append_assoc, hadvances.drawn]
    exact h.drawn
  · change ((t.tasks.set i task).map CallTask.ahead).sum + 2 * s'.left.length < _
    unfold ahead
    omega

/-- A call that is issued begins to share. -/
theorem Sharing.append (h : t.Sharing nspace timeout o s₀ log)
    (hadvances : Advances nspace timeout o s₀.left.length t.now t.world 0 task s' new) :
    ({ t with world := s', tasks := t.tasks ++ [task] } : Traffic Store Instant).Sharing nspace
      timeout o s₀ (log ++ new) := by
  have hbefore := h.balance
  have hafter := hadvances.balance
  refine ⟨?_, hadvances.describes, hadvances.suffix.trans h.suffix, ?_, ?_⟩
  · intro other hmem
    rcases List.mem_append.1 hmem with hold | hnew
    · exact (h.calls other hold).mono hadvances.suffix.length_le le_rfl
    · rw [List.mem_singleton.1 hnew]
      exact hadvances.shares
  · simp only [List.map_append, List.map_cons, List.map_nil, List.sum_append, List.sum_cons,
      List.sum_nil]
    omega
  · rw [List.filterMap_append, List.append_assoc, hadvances.drawn]
    exact h.drawn

/-! ## One action -/

/-- The call at a place is under way. -/
def IsUnderWay (t : Traffic Store Instant) (i : Nat) : Prop :=
  ∃ task, t.tasks[i]? = some task ∧ task.isUnderWay = true

/-- The call at a place is under way, and a timer of its has fired. -/
def IsDue (t : Traffic Store Instant) (i : Nat) : Prop :=
  ∃ call begunAt cancelled run,
    t.tasks[i]? = some (.underWay call begunAt cancelled run) ∧ run.IsDue call t.now

variable {client : Client} {log : List LogRecord}

/-- **Polling a call** keeps what is shared. It lowers what is ahead, if
something is due, and otherwise may change nothing. -/
theorem Sharing.pollAt (client : Client) (hp : o.policy.Outlasts s₀.left.length)
    (ho : o.deadline = none) (htoken : o.hasToken = false)
    (htolerates : ∀ status ∈ s₀.left, o.policy.Tolerates status)
    (h : t.Sharing nspace timeout o s₀ log) (draws : Draws) (i : Nat) :
    let (t', new) := t.pollAt client Store.stub draws i
    t'.Sharing nspace timeout o s₀ (log ++ new) ∧ t'.tasks.length = t.tasks.length ∧
      (t'.ahead < t.ahead ∨ ¬ t.IsDue i ∧ t'.tasks = t.tasks ∧ t'.world = t.world) := by
  have hkept : (∀ call begunAt cancelled run,
      t.tasks[i]? ≠ some (.underWay call begunAt cancelled run)) →
      t.Sharing nspace timeout o s₀ (log ++ []) ∧ t.tasks.length = t.tasks.length ∧
        (t.ahead < t.ahead ∨ ¬ t.IsDue i ∧ t.tasks = t.tasks ∧ t.world = t.world) := by
    intro hnot
    refine ⟨by rwa [List.append_nil], rfl, Or.inr ⟨?_, rfl, rfl⟩⟩
    rintro ⟨call, begunAt, cancelled, run, hi, -⟩
    exact hnot _ _ _ _ hi
  unfold Traffic.pollAt
  rcases hi : t.tasks[i]? with _ | (e | ⟨call, begunAt, cancelled, run⟩ | ⟨call, run, result⟩)
  · exact hkept (by simp [hi])
  · exact hkept (by simp [hi])
  · obtain ⟨hcall, hlasts⟩ := h.calls _ (List.mem_of_getElem? hi)
    have hpolled := pollTask_advances client draws begunAt cancelled hp ho htoken hlasts
      h.describes fun status hmem => htolerates status (h.suffix.subset hmem)
    rw [← hcall] at hpolled
    simp only []
    rcases hpolled with ⟨⟨-, hdue⟩, heq⟩ | hadvances
    · rw [heq]
      have hsame : t.tasks.set i (.underWay call begunAt cancelled run) = t.tasks := by
        obtain ⟨hlength, hget⟩ := List.getElem?_eq_some_iff.1 hi
        rw [← hget, List.set_getElem_self hlength]
      refine ⟨?_, List.length_set, Or.inr ⟨?_, hsame, rfl⟩⟩
      · rw [hsame, List.append_nil]
        exact h
      · rintro ⟨call', begunAt', cancelled', run', hi', hdue'⟩
        rw [hi] at hi'
        cases hi'
        exact hdue hdue'
    · have hset := h.set hi hadvances
      exact ⟨hset.1, List.length_set, Or.inl hset.2⟩
  · exact hkept (by simp [hi])

/-- **A call that is issued** is sent, and keeps what is shared. -/
theorem Sharing.issue (hp : client.policy.Outlasts s₀.left.length)
    (htolerates : ∀ status ∈ s₀.left, client.policy.Tolerates status)
    (h : t.Sharing nspace client.config.rpcTimeout ⟨client.policy, none, false⟩ s₀ log)
    (draws : Draws) :
    let (t', new) := t.issue client Store.stub draws (.describe ⟨nspace⟩) .none false
    t'.Sharing nspace client.config.rpcTimeout ⟨client.policy, none, false⟩ s₀ (log ++ new) ∧
      t'.tasks.length = t.tasks.length + 1 := by
  have hlasts : (Run.new ⟨client.policy, none, false⟩ : Run (CallAttempt Instant) Status).Lasts
      ⟨client.policy, none, false⟩ s₀.left.length t.world.left.length t.now :=
    ⟨rfl, h.suffix.length_le⟩
  have hpolled := pollTask_advances client draws t.now false hp rfl rfl hlasts h.describes
    fun status hmem => htolerates status (h.suffix.subset hmem)
  unfold Traffic.issue
  simp only [hp.prepare_describe nspace, hp.callOf_describe nspace t.now]
  rcases hpolled with ⟨⟨hbegun, -⟩, -⟩ | hadvances
  · exact absurd rfl hbegun
  · refine ⟨h.append { hadvances with drawn := ?_ }, by simp⟩
    rw [List.filterMap_cons_none (client.retried?_sending _)]
    exact hadvances.drawn

/-- What an action leaves to be done: there is a call more, or less is
ahead, or no call that is due was polled and nothing has changed. -/
def Moves (t : Traffic Store Instant) (a : TrafficAction) (t' : Traffic Store Instant) : Prop :=
  t'.tasks.length = t.tasks.length + 1 ∨ t'.tasks.length = t.tasks.length ∧
    (t'.ahead < t.ahead ∨
      (∀ i, a = .poll i → ¬ t.IsDue i) ∧ t'.tasks = t.tasks ∧ t'.world = t.world)

/-- **One action** keeps what is shared, and moves the calls on. -/
theorem Sharing.act (hp : client.policy.Outlasts s₀.left.length)
    (htolerates : ∀ status ∈ s₀.left, client.policy.Tolerates status)
    (h : t.Sharing nspace client.config.rpcTimeout ⟨client.policy, none, false⟩ s₀ log)
    {a : TrafficAction} (ha : a.Describes nspace) (draws : Draws) :
    let (t', new) := t.act client Store.stub draws a
    t'.Sharing nspace client.config.rpcTimeout ⟨client.policy, none, false⟩ s₀ (log ++ new) ∧
      t.Moves a t' := by
  cases a with
  | issue request options cancelled =>
    obtain ⟨rfl, rfl, rfl⟩ := ha
    have hissue := h.issue hp htolerates draws
    exact ⟨hissue.1, Or.inl hissue.2⟩
  | poll i =>
    have hpoll := h.pollAt client hp rfl rfl htolerates draws i
    refine ⟨hpoll.1, Or.inr ⟨hpoll.2.1, hpoll.2.2.imp_right fun hsame => ⟨?_, hsame.2⟩⟩⟩
    rintro j ⟨rfl⟩
    exact hsame.1
  | wait d =>
    refine ⟨?_, Or.inr ⟨rfl, Or.inr ⟨?_, rfl, rfl⟩⟩⟩
    · rw [List.append_nil]
      exact h.wait d
    · intro i hi
      cases hi
  | cancel i => exact ha.elim

/-! ## Schedules -/

/-- The calls and the log after the first actions of a schedule, with
jitter drawn anew at every action. -/
def during (client : Client) (draws : Nat → Draws) (actions : Nat → TrafficAction)
    (begun : Traffic Store Instant) : Nat → Traffic Store Instant × List LogRecord
  | 0 => (begun, [])
  | n + 1 =>
    let (t, log) := during client draws actions begun n
    let (t', new) := t.act client Store.stub (draws n) (actions n)
    (t', log ++ new)

theorem during_succ (client : Client) (draws : Nat → Draws) (actions : Nat → TrafficAction)
    (begun : Traffic Store Instant) (n : Nat) :
    (begun.during client draws actions (n + 1)).1 =
      ((begun.during client draws actions n).1.act client Store.stub (draws n) (actions n)).1 := rfl

/-- **A schedule that attends to `m` calls:** it issues so many, and each
call under way comes to its end or is polled at some later time at which a
timer of its has fired. -/
structure Attends (m : Nat) (calls : Nat → Traffic Store Instant) (actions : Nat → TrafficAction) :
    Prop where
  issued : ∃ n, (calls n).tasks.length = m
  only : ∀ n, (calls n).tasks.length ≤ m
  polled : ∀ n i, (calls n).IsUnderWay i → ∃ n', n ≤ n' ∧
    (¬ (calls n').IsUnderWay i ∨ actions n' = .poll i ∧ (calls n').IsDue i)

variable {draws : Nat → Draws} {actions : Nat → TrafficAction} {begun : Traffic Store Instant}

/-- What is shared at the beginning is shared for ever. -/
theorem Sharing.during (hp : client.policy.Outlasts s₀.left.length)
    (htolerates : ∀ status ∈ s₀.left, client.policy.Tolerates status)
    (hactions : ∀ n, (actions n).Describes nspace)
    (h : begun.Sharing nspace client.config.rpcTimeout ⟨client.policy, none, false⟩ s₀ [])
    (n : Nat) :
    (begun.during client draws actions n).1.Sharing nspace client.config.rpcTimeout
      ⟨client.policy, none, false⟩ s₀ (begun.during client draws actions n).2 := by
  induction n with
  | zero => exact h
  | succ n ih => exact (ih.act hp htolerates (hactions n) (draws n)).1

/-! ## All calls come to an end -/

section

variable {calls : Nat → Traffic Store Instant} {actions : Nat → TrafficAction} {m : Nat}

/-- Once all calls have been issued there are no others. -/
theorem length_of_attends (hattends : Attends m calls actions)
    (hmoves : ∀ n, (calls n).Moves (actions n) (calls (n + 1))) {n n' : Nat}
    (hall : (calls n).tasks.length = m) (hle : n ≤ n') : (calls n').tasks.length = m := by
  induction n', hle using Nat.le_induction with
  | base => exact hall
  | succ n' hle ih =>
    have honly := hattends.only (n' + 1)
    rcases hmoves n' with hmore | ⟨hsame, -⟩ <;> omega

/-- From then on less and less is ahead, unless nothing changes. -/
theorem ahead_lt_or_same (hattends : Attends m calls actions)
    (hmoves : ∀ n, (calls n).Moves (actions n) (calls (n + 1))) {n n' : Nat}
    (hall : (calls n).tasks.length = m) (hle : n ≤ n') :
    (calls n').ahead < (calls n).ahead ∨
      (calls n').tasks = (calls n).tasks ∧ (calls n').world = (calls n).world := by
  induction n', hle using Nat.le_induction with
  | base => exact Or.inr ⟨rfl, rfl⟩
  | succ n' hle ih =>
    have hlength := length_of_attends hattends hmoves hall hle
    have hnext : (calls (n' + 1)).tasks.length = m :=
      length_of_attends hattends hmoves hall (Nat.le_succ_of_le hle)
    have hahead : (calls n').ahead ≤ (calls n).ahead := by
      rcases ih with hlt | ⟨htasks, hworld⟩
      · exact Nat.le_of_lt hlt
      · rw [ahead, htasks, hworld]
        exact le_rfl
    rcases hmoves n' with hmore | ⟨-, hlt | ⟨-, htasks, hworld⟩⟩
    · omega
    · exact Or.inl (lt_of_lt_of_le hlt hahead)
    · rcases ih with hlt | hsame
      · left
        rwa [ahead, htasks, hworld]
      · exact Or.inr ⟨htasks.trans hsame.1, hworld.trans hsame.2⟩

/-- **No call is under way for ever.** The induction is on what is ahead of
all calls together. -/
theorem exists_none_underWay (hattends : Attends m calls actions)
    (hmoves : ∀ n, (calls n).Moves (actions n) (calls (n + 1))) {n : Nat}
    (hall : (calls n).tasks.length = m) :
    ∃ n', n ≤ n' ∧ ∀ i, ¬ (calls n').IsUnderWay i := by
  induction hahead : (calls n).ahead using Nat.strong_induction_on generalizing n with
  | _ left ih =>
    by_cases hnone : ∀ i, ¬ (calls n).IsUnderWay i
    · exact ⟨n, le_rfl, hnone⟩
    have hgoesOn : ∀ n', n ≤ n' → (calls n').ahead < (calls n).ahead →
        ∃ n', n ≤ n' ∧ ∀ i, ¬ (calls n').IsUnderWay i := by
      intro n' hle hlt
      obtain ⟨n'', hlater, hended⟩ := ih _ (hahead ▸ hlt)
        (length_of_attends hattends hmoves hall hle) rfl
      exact ⟨n'', Nat.le_trans hle hlater, hended⟩
    push Not at hnone
    obtain ⟨i, hi⟩ := hnone
    obtain ⟨n', hle, hpolled⟩ := hattends.polled n i hi
    rcases ahead_lt_or_same hattends hmoves hall hle with hlt | ⟨htasks, hworld⟩
    · exact hgoesOn n' hle hlt
    · -- nothing has changed, so the call is under way, and is polled when it is due
      have hi' : (calls n').IsUnderWay i := by
        unfold IsUnderWay
        rwa [htasks]
      obtain ⟨hpoll, hdue⟩ := hpolled.resolve_left (not_not_intro hi')
      have hlength := length_of_attends hattends hmoves hall hle
      have hnext : (calls (n' + 1)).tasks.length = m :=
        length_of_attends hattends hmoves hall (Nat.le_succ_of_le hle)
      rcases hmoves n' with hmore | ⟨-, hlt | ⟨hnot, -⟩⟩
      · omega
      · refine hgoesOn (n' + 1) (Nat.le_succ_of_le hle) (lt_of_lt_of_eq hlt ?_)
        rw [ahead, ahead, htasks, hworld]
      · exact absurd hdue (hnot i hpoll)

end

end Traffic

namespace Traffic

/-- The calls have all been answered, and the books are balanced. -/
structure Settled (nspace : String) (s₀ : Store) (m : Nat) (t : Traffic Store Instant)
    (log : List LogRecord) : Prop where
  answered : ∀ task ∈ t.tasks, task.result = .answered (Store.description nspace)
  none_left : t.world.left = []
  drawn : log.filterMap LogRecord.retried? = s₀.left.map Status.text
  asked : t.world.asked = s₀.asked + m + s₀.left.length

/-- **Calls of which none is under way** have settled, if there is one. -/
theorem Sharing.settled (h : t.Sharing nspace timeout o s₀ log)
    (hended : ∀ i, ¬ t.IsUnderWay i) (hsome : 1 ≤ t.tasks.length) :
    t.ahead = 0 ∧ Settled nspace s₀ t.tasks.length t log := by
  have hcalls : ∀ task ∈ t.tasks, task.unrequited = 1 ∧ task.ahead = 0 ∧
      task.result = .answered (Store.description nspace) ∧ t.world.left.length = 0 := by
    intro task hmem
    have hshares := h.calls task hmem
    cases task with
    | rejected e => exact hshares.elim
    | underWay call begunAt cancelled run =>
      obtain ⟨i, hi⟩ := List.mem_iff_getElem?.1 hmem
      exact absurd ⟨_, hi, rfl⟩ (hended i)
    | ended call run result => exact ⟨rfl, rfl, hshares.1, hshares.2⟩
  have hnone : t.world.left = [] := by
    obtain ⟨task, hmem⟩ := List.exists_mem_of_length_pos hsome
    exact List.eq_nil_of_length_eq_zero (hcalls task hmem).2.2.2
  have hsum : (t.tasks.map CallTask.unrequited).sum = t.tasks.length := by
    rw [List.map_congr_left fun task hmem => (hcalls task hmem).1]
    simp
  have hahead : (t.tasks.map CallTask.ahead).sum = 0 := by
    rw [List.map_congr_left fun task hmem => (hcalls task hmem).2.1]
    simp
  have hbalance := h.balance
  have hdrawn := h.drawn
  rw [hnone, hsum] at hbalance
  rw [hnone, List.map_nil, List.append_nil] at hdrawn
  refine ⟨by rw [ahead, hahead, hnone]; rfl, fun task hmem => (hcalls task hmem).2.2.1, hnone,
    hdrawn, ?_⟩
  rw [List.length_nil] at hbalance
  omega

end Traffic

/-- A service that fails the next description and answers after a twentieth
of a second. -/
def flakyStore : Store :=
  (Store.new.failNext .describeNamespace [.new .unavailable "injected failure 1"]).setLatency
    .describeNamespace (.ofMillis 50)

/-- A client that makes two attempts. -/
def twiceClient : Client := ⟨.standard "worker", twoAttempts.policy⟩

/-- Two calls are issued at once. The second draws the failure, pauses and
tries again, while the first is answered. -/
def twoDescriptions : Nat → TrafficAction
  | 0 | 1 => .issue (.describe ⟨"default"⟩) .none false
  | 2 | 7 => .wait (.ofMillis 50)
  | 3 | 6 | 8 => .poll 1
  | 4 => .poll 0
  | 5 => .wait (.ofMillis 100)
  | _ => .wait .zero

/-- The two calls after some of the actions. -/
def twoCalls (n : Nat) : Traffic Store Instant :=
  (Traffic.during twiceClient (fun _ => .still) twoDescriptions ⟨⟨0⟩, flakyStore, []⟩ n).1

end ResilientCalls
