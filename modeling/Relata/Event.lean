import Relata.Error

/-!
Log events: a level, a message, and named texts that say what the message is about.
-/
namespace Relata

inductive Level where
  | error
  | warn
  | info
  | debug
  deriving DecidableEq, Repr

namespace Level

def name : Level → String
  | .error => "ERROR"
  | .warn => "WARN"
  | .info => "INFO"
  | .debug => "DEBUG"

end Level

structure Event where
  level : Level
  message : String
  fields : List (String × String)
  deriving DecidableEq, Repr

namespace Event

/-- What a database engine says by itself counts only as its class in a log. -/
def withoutEngineText (message : String) : String :=
  if Text.startsWith message "SQLite error" then "SQLite error"
  else if Text.startsWith message "Undefined table: no such table" then
    "Undefined table: no such table"
  else message

/-- An error as the field `error`. -/
def errorField (e : Error) : String × String := ("error", withoutEngineText e.message)

end Event
end Relata
