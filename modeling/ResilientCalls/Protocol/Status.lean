import ResilientCalls.Protocol.Code

/-!
# Statuses

A failed call answers with a status: a code, a message, and perhaps the
type of a structured detail. A status is a failure in the sense of the
retry rules.
-/

namespace ResilientCalls

/-- How a call of the service failed. -/
structure Status where
  code : Code
  message : String
  detailsType : Option String
deriving DecidableEq, Inhabited

namespace Status

/-- A status without detail. -/
def new (code : Code) (message : String) : Status := ⟨code, message, none⟩

/-- The status with the type of a detail. -/
def withDetailsType (s : Status) (detail : String) : Status := { s with detailsType := some detail }

/-- The text of a status. -/
def text (s : Status) : String := s.code.name ++ ": " ++ s.message

end Status

instance : Failure Status where
  code s := s.code.name
  detailType s := s.detailsType
  isCancelled s := s.code == .cancelled
  isDeadlineExceeded s := s.code == .deadlineExceeded
  text := Status.text

end ResilientCalls
