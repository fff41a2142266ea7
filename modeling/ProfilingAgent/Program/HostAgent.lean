import ProfilingAgent.Program.Scopes

set_option autoImplicit false

namespace ProfilingAgent.Program

def hosted : Act AgentId := do
  match (← get).hostAgent with
  | some a => pure a
  | none =>
    let a ← newAgent .idle
    modify fun p => { p with hostAgent := some a }
    pure a

def hostedStore : Act StoreId := do storeOf (← hosted)

/-- Puts a new agent with a sampler in the place of the one that hosts talk to, unless that one is
running. -/
def registerSampler (sampler : Sampler) : Act (Except AgentError Unit) := do
  let current ← hosted
  if (← state current) = .running then pure (.error .alreadyRunning)
  else
    let s ← storeOf current
    let a ← newAgentOn s sampler
    modify fun p => { p with hostAgent := some a }
    dropAgent current
    say .debug "Registered native sampler"
    pure (.ok ())

end ProfilingAgent.Program
