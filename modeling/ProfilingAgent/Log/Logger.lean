import ProfilingAgent.Log.Filter

set_option autoImplicit false

/-!
# Turning logging on

Logging is turned on once in a process. The first request decides: a filter from the environment
goes before the severity that the host asks for. If somebody else's logger is already in place
nothing is installed, and every request says so.

A line can also come from a host's own logging facade, which has a limit of its own: the requested
level, or what the environment's filter lets through at most.
-/
namespace ProfilingAgent.Log

def ownTarget : String := "pyroscope_agent_native::logger"

structure Logger where
  /-- Somebody else's logger was there first. -/
  foreign : Bool
  environment : Option String
  filter : Option Filter
  facadeLimit : Threshold
  requested : Bool
  written : List String

namespace Logger

def start (foreign : Bool) (environment : Option String) : Logger :=
  ⟨foreign, environment, none, .off, false, []⟩

def emitWith (l : Logger) (names : List String) (target : String) (spans : List Span) (e : Event) :
    Logger :=
  match l.filter with
  | none => l
  | some f =>
    let shown := f.entered target spans
    if f.passes target shown names.contains e.level then
      { l with written := l.written ++ [e.line shown] }
    else l

def emit (l : Logger) (target : String) (spans : List Span) (e : Event) : Logger :=
  l.emitWith e.names target spans e

/-- The fields of every event that comes through the host's facade. Only the message is shown. -/
def facadeNames : List String :=
  ["message", "log.target", "log.module_path", "log.file", "log.line"]

def emitThroughFacade (l : Logger) (target : String) (spans : List Span) (e : Event) : Logger :=
  if l.facadeLimit.passes e.level then l.emitWith facadeNames target spans e else l

def refusal : String :=
  "pyroscope: logging not initialized: a global default trace dispatcher has already been set\n"

def request (l : Logger) (severity : UInt32) : Logger × Bool :=
  if l.requested then (l, l.filter.isSome)
  else if l.foreign then ({ l with requested := true, written := l.written ++ [refusal] }, false)
  else
    let level := Level.ofSeverity severity
    let installed := match l.environment.bind Filter.ofText? with
      | some f => { l with requested := true, filter := some f, facadeLimit := f.loosest }
      | none =>
        { l with requested := true, filter := some (.ofLevel level), facadeLimit := .upTo level }
    (installed.emit ownTarget [] (.say .debug ("Logging initialized at " ++ level.label)), true)

def output (l : Logger) : String := String.join l.written

end Logger
end ProfilingAgent.Log
