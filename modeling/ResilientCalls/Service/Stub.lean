import ResilientCalls.Client.Attempt
import ResilientCalls.Service.Store

/-!
# Talking to the service in memory

A request is counted when it is sent, waits out the latency of its call,
and is answered when it is next looked at. A request that is given up
before has no effect but its count.
-/

namespace ResilientCalls

namespace Store

/-- The stub of the service; a request on its way is the instant of its
answer. -/
def stub : Stub Store Instant where
  send r now s :=
    let answerAt := match s.latency.get r.method with
      | none => now
      | some latency => now.timer latency
    (answerAt, s.enter r.method)
  look r now answerAt s :=
    if answerAt.reached now then
      let (result, s) := s.settle r
      (some result, s)
    else (none, s)
  timers answerAt := [answerAt]

end Store

end ResilientCalls
