import ProfilingAgent.Context.Id
import ProfilingAgent.Settings.Basic
import ProfilingAgent.Tag.Basic

set_option autoImplicit false

namespace ProfilingAgent

abbrev AgentId := Nat

inductive Use
  | addTags (c : ContextId) (tags : List Tag)
  | removeTags (c : ContextId) (tags : List Tag)
  | addGlobal (t : Tag)
  | removeGlobal (t : Tag)
  | replaceGlobals (old new : List Tag)
  | snapshot (c : ContextId)
  | clearContext (c : ContextId)
  | state
deriving DecidableEq

inductive Ending
  | succeeds
  | fails
  | panics (message : String)
deriving DecidableEq, Repr

structure Reply where
  uses : List Use := []
  ending : Ending := .succeeds

structure Script where
  onStart : Nat → Reply
  onStop : Nat → Reply
  onReset : Nat → Reply

inductive Sampler
  | idle
  | scripted (s : Script)

instance : Inhabited Sampler := ⟨.idle⟩

/-- A call that a sampler got. A start shows the global tags of its store at that moment, and so
does a stop if there was a start before. -/
inductive SamplerCall
  | start (agent : AgentId) (settings : Settings) (globals : List Tag)
  | stop (agent : AgentId) (globals : Option (List Tag))
  | reset (agent : AgentId)
deriving DecidableEq

end ProfilingAgent
