import ResilientCalls.Client.Config
import ResilientCalls.Proofs.Document.Fields
import ResilientCalls.Proofs.Time.Millis
/-!
# Timeouts written and read back

A configuration is written with its timeouts in whole milliseconds, the
rest dropped. So they come back less than a millisecond shorter and stay
so from then on; but a timeout of less than a millisecond comes back as
none, and the configuration, valid before, is refused
(`timeouts_roundDown`).
-/

namespace ResilientCalls

namespace ClientConfig

variable {c : ClientConfig}

/-! ## What is written -/

/-- The names of the fields, in their order. -/
def names : List String :=
  ["target", "namespace", "identity", "rpc_timeout_ms", "long_poll_timeout_ms", "rpc_retry"]

/-- The fields of a configuration as they are written. -/
def fields (c : ClientConfig) : List (String × Node) :=
  match c.write with
  | .mapping entries => entries
  | _ => []

/-- The configuration with its timeouts read back from its node. -/
def reread? (reading : Reading) (c : ClientConfig) : Option ClientConfig := do
  let r ← Record.ofNode? names reading c.write
  return { c with
    rpcTimeout := ← r.need "rpc_timeout_ms" readTimeout
    longPollTimeout := ← r.need "long_poll_timeout_ms" readTimeout }

theorem ofNode?_write (reading : Reading) (c : ClientConfig) :
    Record.ofNode? names reading c.write = some ⟨c.fields, reading.inside⟩ := by
  have hkeys : (c.fields.map Prod.fst).Sublist names := List.Sublist.refl names
  exact Record.ofNode?_mapping hkeys (by decide) reading

/-- What is found under each name in the fields of a configuration. -/
structure Found (c : ClientConfig) : Prop where
  target : c.fields.lookup "target" = some (.text c.target)
  nspace : c.fields.lookup "namespace" = some (.text c.nspace)
  identity : c.fields.lookup "identity" = some (.text c.identity)
  rpcTimeout : c.fields.lookup "rpc_timeout_ms" = some (.integer (writtenTimeout c.rpcTimeout))
  longPollTimeout :
    c.fields.lookup "long_poll_timeout_ms" = some (.integer (writtenTimeout c.longPollTimeout))
  rpcRetry : c.fields.lookup "rpc_retry" = some c.rpcRetry.write

theorem found (c : ClientConfig) : c.Found := ⟨rfl, rfl, rfl, rfl, rfl, rfl⟩

theorem readTimeout_writtenTimeout (reading : Reading) (d : Duration) :
    readTimeout reading (.integer (writtenTimeout d)) = some d.roundDown := by
  have hcount : writtenTimeout d ≤ maxCount64 := Nat.min_le_right _ _
  rw [readTimeout, Reader.count_integer hcount, Option.map_some]
  rfl

/-! ## What is read back -/

/-- The configuration with its timeouts in whole milliseconds. -/
def roundedDown (c : ClientConfig) : ClientConfig :=
  { c with
    rpcTimeout := c.rpcTimeout.roundDown
    longPollTimeout := c.longPollTimeout.roundDown }

/-- The timeouts are found under their names. -/
theorem reread?_eq (reading : Reading) (c : ClientConfig) :
    c.reread? reading = some c.roundedDown := by
  rw [reread?, ofNode?_write]
  simp only [Option.bind_eq_bind, Option.bind_some, Record.need, c.found.rpcTimeout,
    c.found.longPollTimeout, readTimeout_writtenTimeout]
  rfl

/-- Whoever reads the whole configuration reads the same timeouts, whatever
becomes of its settings. -/
theorem read_write {s : PolicySettings} {reading : Reading}
    (hretry : PolicySettings.read reading.inside c.rpcRetry.write = some s) (process : String) :
    read process reading c.write = some { c.roundedDown with rpcRetry := s } := by
  have hfound := c.found
  have hfields := ofNode?_write reading c
  unfold names at hfields
  unfold roundedDown
  rw [read, hfields]
  simp only [Option.bind_eq_bind, Option.bind_some, Record.get_of_lookup hfound.target,
    Record.get_of_lookup hfound.nspace, Record.get_of_lookup hfound.identity,
    Record.get_of_lookup hfound.rpcTimeout, Record.get_of_lookup hfound.longPollTimeout,
    Record.get_of_lookup hfound.rpcRetry, Reader.text, readTimeout_writtenTimeout, hretry]
  rfl

/-- What was read back once is read back as it is. -/
theorem roundedDown_roundedDown (c : ClientConfig) : c.roundedDown.roundedDown = c.roundedDown := by
  unfold roundedDown
  simp only [Duration.roundDown_of_isCounted (Duration.isCounted_roundDown _)]

/-- **A configuration that was valid breaks no rule but those of the
timeouts** when they are read back. -/
theorem validate_roundedDown (hc : c.validate = .ok ()) :
    c.roundedDown.validate =
      if c.rpcTimeout.nanos < Duration.perMillisecond then .error (.config .zeroRpcTimeout)
      else if c.longPollTimeout.nanos < Duration.perMillisecond then
        .error (.config .zeroLongPollTimeout)
      else .ok () := by
  unfold validate at hc
  split at hc
  · cases hc
  next htarget =>
  split at hc
  · cases hc
  next hnspace =>
  split at hc
  · cases hc
  split at hc
  · cases hc
  split at hc
  · cases hc
  next p hpolicy =>
  have hsame : c.roundedDown.retryPolicy = .ok p := hpolicy
  unfold roundedDown at hsame ⊢
  simp only [validate, htarget, hnspace, hsame, Duration.isZero_roundDown, decide_eq_true_eq,
    Bool.false_eq_true, if_false]

end ClientConfig

/-- **A valid configuration is read back** with each timeout rounded down to
a whole millisecond, and the same from then on. It is valid exactly when
no timeout was shorter than a millisecond, and refused for the first one
that was. -/
theorem timeouts_roundDown (c : ClientConfig) (hc : c.validate = .ok ()) (reading : Reading) :
    ∃ c', c.reread? reading = some c' ∧
      c.rpcTimeout.IsRoundedDown c'.rpcTimeout ∧
      c.longPollTimeout.IsRoundedDown c'.longPollTimeout ∧
      c' = { c with rpcTimeout := c'.rpcTimeout, longPollTimeout := c'.longPollTimeout } ∧
      c'.validate =
        (if c.rpcTimeout.nanos < Duration.perMillisecond then .error (.config .zeroRpcTimeout)
        else if c.longPollTimeout.nanos < Duration.perMillisecond then
          .error (.config .zeroLongPollTimeout)
        else .ok ()) ∧
      c'.reread? reading = some c' := by
  refine ⟨c.roundedDown, c.reread?_eq reading, c.rpcTimeout.isRoundedDown_roundDown,
    c.longPollTimeout.isRoundedDown_roundDown, rfl, ClientConfig.validate_roundedDown hc, ?_⟩
  rw [ClientConfig.reread?_eq, ClientConfig.roundedDown_roundedDown]

/-- A client that gives regular calls a millisecond and a half, and calls
that wait for news as long as can be. -/
def hurried : ClientConfig :=
  { ClientConfig.standard "hurried" with rpcTimeout := ⟨1500000⟩, longPollTimeout := .longest }

/-- It is valid and stays so with timeouts of one millisecond and of the
largest count. -/
theorem timeouts_roundDown_hurried :
    hurried.validate = .ok () ∧
    ∃ c', hurried.reread? .partly = some c' ∧ c'.validate = .ok () ∧
      c'.rpcTimeout = .ofMillis 1 ∧ c'.longPollTimeout = .ofMillis maxCount64 ∧
      c'.reread? .partly = some c' := by
  have hvalid : hurried.validate = .ok () := by decide +kernel
  obtain ⟨c', hread, -, -, -, haccepted, hagain⟩ := timeouts_roundDown hurried hvalid .partly
  obtain rfl := Option.some.inj (hread.symm.trans (hurried.reread?_eq .partly))
  exact ⟨hvalid, _, hread, haccepted.trans (by decide +kernel), by decide +kernel,
    by decide +kernel, hagain⟩

/-- A client that gives regular calls half a millisecond. -/
def rushed : ClientConfig :=
  { ClientConfig.standard "rushed" with rpcTimeout := ⟨500000⟩ }

/-- It is valid, and refused once it was written and read back. -/
theorem timeout_vanishes_halfMillisecond :
    rushed.validate = .ok () ∧
    ∃ c', rushed.reread? .partly = some c' ∧ c'.rpcTimeout.isZero = true ∧
      c'.validate = .error (.config .zeroRpcTimeout) :=
  ⟨by decide +kernel, _, rushed.reread?_eq .partly, by decide +kernel, by decide +kernel⟩

end ResilientCalls
