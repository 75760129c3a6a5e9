/-!
# Log records

A record has a level, a message and named fields in order.
-/

namespace ResilientCalls

/-- How urgent a record is. -/
inductive LogLevel where
  | debug
  | info
  | warn
deriving DecidableEq

/-- The name of a level. -/
def LogLevel.name : LogLevel → String
  | .debug => "DEBUG"
  | .info => "INFO"
  | .warn => "WARN"

/-- One line of a log. -/
structure LogRecord where
  level : LogLevel
  message : String
  fields : List (String × String)
deriving DecidableEq

end ResilientCalls
