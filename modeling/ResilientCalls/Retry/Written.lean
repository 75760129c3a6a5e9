import ResilientCalls.Document.Wire
import ResilientCalls.Retry.Settings
import ResilientCalls.Toml.Printer
import ResilientCalls.Toml.Reader

/-!
# The written form of policy settings

Settings are written as a mapping of their fields in order. Every field
has a default, the one of the standard policy, so a field that is left out
is not the same as a field without a value: an absent maximum or
expiration is left out where it is written, and comes back as the default.
-/

namespace ResilientCalls

namespace Matcher

/-- Reads a matcher. -/
def read : Reader Matcher := fun reading node => do
  let r ← Record.ofNode? ["code", "detail_type"] reading node
  return ⟨← r.need "code" .text, ← r.get "detail_type" none (.optional .text)⟩

/-- The node of a matcher. -/
def write (m : Matcher) : Node :=
  .mapping ([("code", .text m.code)] ++ entryIfSome "detail_type" (m.detailType.map .text))

instance : Wire Matcher := ⟨read, write⟩

end Matcher

namespace PolicySettings

/-- The names of the fields, in their order. -/
def names : List String :=
  ["initial_interval_ms", "backoff_coefficient", "maximum_interval_ms", "maximum_attempts",
    "expiration_ms", "jitter", "do_not_retry"]

/-- Reads settings. -/
def read : Reader PolicySettings := fun reading node => do
  let r ← Record.ofNode? names reading node
  let s := standard
  return ⟨← r.get "initial_interval_ms" s.initialIntervalMs (.count maxCount64),
    ← r.get "backoff_coefficient" s.backoffCoefficient .real,
    ← r.get "maximum_interval_ms" s.maximumIntervalMs (.optional (.count maxCount64)),
    ← r.get "maximum_attempts" s.maximumAttempts (.count maxCount32),
    ← r.get "expiration_ms" s.expirationMs (.optional (.count maxCount64)),
    ← r.get "jitter" s.jitter .real, ← r.get "do_not_retry" s.doNotRetry (.list Matcher.read)⟩

/-- The entries of settings: those of the fields with a value. -/
def entries (s : PolicySettings) : List (String × Node) :=
  [("initial_interval_ms", .integer s.initialIntervalMs),
      ("backoff_coefficient", .real s.backoffCoefficient)] ++
    entryIfSome "maximum_interval_ms" (s.maximumIntervalMs.map fun n : Nat => .integer n) ++
    [("maximum_attempts", .integer s.maximumAttempts)] ++
    entryIfSome "expiration_ms" (s.expirationMs.map fun n : Nat => .integer n) ++
    [("jitter", .real s.jitter), ("do_not_retry", .sequence (s.doNotRetry.map Matcher.write))]

/-- The node of settings. -/
def write (s : PolicySettings) : Node := .mapping s.entries

instance : Wire PolicySettings := ⟨read, write⟩

/-- The TOML document of settings, if their numbers fit one. -/
def toToml? (s : PolicySettings) : Option String := Toml.print? s.write

/-- The settings that a TOML document gives. -/
def ofToml? (text : String) : Option PolicySettings := (Toml.read? text).bind (read .partly)

end PolicySettings

end ResilientCalls
