import ProfilingAgent.Text.Blank

set_option autoImplicit false

namespace ProfilingAgent

inductive Level
  | trace | debug | info | warn | error
deriving DecidableEq, Inhabited, Repr

namespace Level

/-- The ordinal of a level. A higher one is more severe. -/
def severity : Level → UInt32
  | trace => 10
  | debug => 20
  | info => 30
  | warn => 40
  | error => 50

def ofSeverity (n : UInt32) : Level :=
  if n = 10 then trace
  else if n = 20 then debug
  else if n = 30 then info
  else if n = 40 then warn
  else error

def label : Level → String
  | trace => "TRACE"
  | debug => "DEBUG"
  | info => "INFO"
  | warn => "WARN"
  | error => "ERROR"

def name : Level → String
  | trace => "trace"
  | debug => "debug"
  | info => "info"
  | warn => "warn"
  | error => "error"

def ofName? (s : String) : Option Level :=
  let word := Text.lower (Text.trim s)
  if word = "error" then some error
  else if word = "warn" ∨ word = "warning" then some warn
  else if word = "info" then some info
  else if word = "debug" then some debug
  else if word = "trace" then some trace
  else none

def invalidMessage (s : String) : String :=
  "Invalid log level: '" ++ s ++ "'. Valid levels are: error, warn, info, debug, trace"

def atLeast (level threshold : Level) : Bool := threshold.severity ≤ level.severity

theorem ofSeverity_severity (level : Level) : ofSeverity level.severity = level := by
  cases level <;> rfl

end Level
end ProfilingAgent
