import ResilientCalls.Client.Basic

/-!
# How a call ends

The result of a call, and the two records that stand in the log around its
retry run: one when the call is sent and one when it is settled.
-/

namespace ResilientCalls

/-- The result of a call. -/
inductive CallResult where
  | answered (answer : Answer)
  | failed (error : ClientError)
  /-- The call broke down, with a message. -/
  | crashed (message : String)
  /-- The call has not come to an end. -/
  | unfinished

namespace CallResult

/-- The call has come to its end: it was answered or it failed. -/
def IsSettled (r : CallResult) : Prop :=
  (∃ answer, r = .answered answer) ∨ ∃ error, r = .failed error

instance decidableIsSettled (r : CallResult) : Decidable r.IsSettled :=
  match r with
  | .answered answer => isTrue (Or.inl ⟨answer, rfl⟩)
  | .failed error => isTrue (Or.inr ⟨error, rfl⟩)
  | .crashed _ => isFalse (by rintro (⟨_, h⟩ | ⟨_, h⟩) <;> cases h)
  | .unfinished => isFalse (by rintro (⟨_, h⟩ | ⟨_, h⟩) <;> cases h)

instance decidableFailed (r : CallResult) (error : ClientError) : Decidable (r = .failed error) :=
  match r with
  | .failed other => decidable_of_iff (other = error) ⟨congrArg _, CallResult.failed.inj⟩
  | .answered _ | .crashed _ | .unfinished => isFalse nofun

instance decidableDescribed (r : CallResult) (a : DescribeAnswer) :
    Decidable (r = .answered (.describe a)) :=
  match r with
  | .answered (.describe other) => decidable_of_iff (other = a)
      ⟨fun h => h ▸ rfl, fun h => Answer.describe.inj (CallResult.answered.inj h)⟩
  | .answered (.start _) | .answered (.signal _) | .answered (.history _) | .answered (.poll _)
  | .answered (.complete _) | .failed _ | .crashed _ | .unfinished => isFalse nofun

end CallResult

/-- A call at its end. -/
structure CallEnd (σ : Type) where
  now : Instant
  world : σ
  result : CallResult
  log : List LogRecord

namespace Client

/-- The result of a call whose run ended. -/
def resultOf (m : Method) : Ending Status Answer → CallResult
  | .settled (.ok a) => .answered a
  | .settled (.error e) => .failed (.rpc m e)
  | .crashed message => .crashed message
  | .pending => .unfinished

/-- A call is sent. -/
def sending (c : Client) (m : Method) : LogRecord :=
  ⟨.debug, "Sending service call", [("method", m.name), ("namespace", c.config.nspace)]⟩

/-- The text of the code of a status that may be absent. -/
def statusText : Option Status → String
  | none => "None"
  | some s => "Some(" ++ s.code.label ++ ")"

/-- The record of a call that is settled after some time and some
attempts; a call that is not settled has none. -/
def settling (c : Client) (m : Method) (elapsed : Duration) (attempts : Nat) :
    CallResult → List LogRecord
  | .answered _ =>
    [⟨.debug, "Service call succeeded",
      [("method", m.name), ("namespace", c.config.nspace),
        ("elapsed_ms", toString elapsed.wholeMillis), ("attempts", toString attempts)]⟩]
  | .failed e =>
    [⟨.warn, "Service call failed",
      [("method", m.name), ("namespace", c.config.nspace),
        ("elapsed_ms", toString elapsed.wholeMillis), ("attempts", toString attempts),
        ("status", statusText e.status), ("error", e.message)]⟩]
  | .crashed _ | .unfinished => []

end Client

end ResilientCalls
