/-!
# Event

Warnings and errors for whoever runs the program: a message and some named values.
-/

namespace ResourceQuery

/-- How grave an event is. -/
inductive Level where
  | warn
  | error
  deriving DecidableEq, Repr

/-- The name of a level. -/
def Level.name : Level → String
  | warn => "WARN"
  | error => "ERROR"

/-- Something worth telling whoever runs the program. -/
structure Event where
  level : Level
  message : String
  fields : List (String × String) := []
  deriving DecidableEq, Repr

end ResourceQuery
