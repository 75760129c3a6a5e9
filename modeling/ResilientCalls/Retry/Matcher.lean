/-!
# Failures and how they are classified

A failed attempt shows a status code, perhaps a detail type, and two
flags. A table of matchers says which failures must not be retried. The
table is asked first, the flags after it, so a listed failure is
non-retryable whatever else it reports.
-/

namespace ResilientCalls

/-- What the retry rules see of a failed attempt, and its text. -/
class Failure (ε : Type) where
  /-- The status code. -/
  code : ε → String
  /-- The type of the failure's detail, if it has one. -/
  detailType : ε → Option String := fun _ => none
  /-- The failure reports that the work was cancelled. -/
  isCancelled : ε → Bool := fun _ => false
  /-- The failure reports that a deadline of the attempt passed. -/
  isDeadlineExceeded : ε → Bool := fun _ => false
  /-- The text of the failure. -/
  text : ε → String

/-- A bare text is a failure whose code is the text. -/
instance : Failure String where
  code text := text
  text text := text

/-- An entry of the do-not-retry table: a status code, and perhaps the
detail type it is limited to. -/
structure Matcher where
  code : String
  detailType : Option String
deriving DecidableEq, Inhabited

/-- The matcher of a code with any detail. -/
def Matcher.ofCode (code : String) : Matcher := ⟨code, none⟩

/-- A matcher matches a failure of its code, whose detail type is the
matcher's if the matcher names one. -/
def Matcher.matchesFailure {ε : Type} [Failure ε] (m : Matcher) (e : ε) : Bool :=
  Failure.code e == m.code &&
    match m.detailType with
    | none => true
    | some detail => Failure.detailType e == some detail

/-- What a failure means for the retry loop. -/
inductive Disposition where
  | retryable
  | nonRetryable
  | deadlineExceeded
  | cancelled
deriving DecidableEq

namespace Disposition

/-- The text of a disposition. -/
def text : Disposition → String
  | .retryable => "retryable"
  | .nonRetryable => "non-retryable"
  | .deadlineExceeded => "deadline exceeded"
  | .cancelled => "cancelled"

/-- Every disposition but retryable ends the loop. -/
def isTerminal : Disposition → Bool
  | .retryable => false
  | _ => true

end Disposition

/-- The disposition of a failure under a do-not-retry table;
`deadlineElapsed` tells whether the deadline of the whole run has passed. -/
def classify {ε : Type} [Failure ε] (table : List Matcher) (e : ε) (deadlineElapsed : Bool) :
    Disposition :=
  if table.any (·.matchesFailure e) then .nonRetryable
  else if Failure.isCancelled e then .cancelled
  else if Failure.isDeadlineExceeded e && deadlineElapsed then .deadlineExceeded
  else .retryable

end ResilientCalls
