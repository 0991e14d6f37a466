/-!
Log events: what a run reports while it goes on.
-/

namespace ModuleOutputs

/-- How serious an event is. -/
inductive Level where
  | info
  | warn
  | error
deriving Repr, DecidableEq

namespace Level

/-- The word for a level in a log line. -/
def word : Level → String
  | .info => "INFO"
  | .warn => "WARN"
  | .error => "ERROR"

/-- The order of levels, from the most serious on. -/
def rank : Level → Nat
  | .error => 1
  | .warn => 2
  | .info => 3

end Level

/-- A log event: a message, and named values that belong to it. -/
structure Event where
  level : Level
  message : String
  fields : List (String × String) := []
deriving Repr, DecidableEq

namespace Event

/-- The event as it is printed, without its time. -/
def text (e : Event) : String :=
  e.level.word ++ " " ++ e.message ++
    String.join (e.fields.map fun (name, value) => " " ++ name ++ "=" ++ value)

/-- The line that the event begins with, which is all of it unless a value has
several lines. -/
def line (e : Event) : String :=
  String.ofList (e.text.toList.takeWhile (· != '\n'))

end Event

end ModuleOutputs
