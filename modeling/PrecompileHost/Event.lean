/-!
Log events. Each has a severity, the part of the system that reports it, a message and named
fields, all as text.
-/

namespace PrecompileHost

inductive Level
  | error
  | warn
  | info
  | debug
  | trace
  deriving DecidableEq, Repr

namespace Level

def all : List Level :=
  [.error, .warn, .info, .debug, .trace]

/-- Zero is the most severe. -/
def rank : Level → Nat
  | .error => 0
  | .warn => 1
  | .info => 2
  | .debug => 3
  | .trace => 4

def name : Level → String
  | .error => "ERROR"
  | .warn => "WARN"
  | .info => "INFO"
  | .debug => "DEBUG"
  | .trace => "TRACE"

end Level

structure Event where
  level : Level
  target : String
  message : String
  fields : List (String × String) := []
  deriving DecidableEq, Repr

/-- Whether an event is at least as severe as `threshold`. -/
def Event.isAtLeast (e : Event) (threshold : Level) : Bool :=
  e.level.rank ≤ threshold.rank

end PrecompileHost
