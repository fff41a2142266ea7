import ProfilingAgent.Program.Callback

set_option autoImplicit false

/-!
# Lives of agents

An agent is started with settings, started again with others, stopped, and dropped. One agent at
most may run in a process: whoever runs holds the slot. The tags of the settings are global tags
for as long as the agent runs.

Transitions of an agent exclude each other by a lock that is not reentrant. Each transition applies
the decision about a fork first, before it takes the lock.

The line about the version and the time of the build that the first start of a process writes is left
out, as no input determines that time.
-/
namespace ProfilingAgent

inductive AgentError
  | alreadyRunning
  | notRunning (phase : Phase)
  | startup (message : String)
  | shutdown (message : String)
  | tag (e : TagError)
deriving DecidableEq, Repr

namespace AgentError

def message : AgentError → String
  | alreadyRunning => "Another agent is already running in this process"
  | notRunning phase => "Agent is not running (state: " ++ phase.text ++ ")"
  | startup message => "Startup error: " ++ message
  | shutdown message => "Shutdown error: " ++ message
  | tag e => "Tag error: " ++ e.message

end AgentError

namespace Settings

def validTags (s : Settings) : List Tag :=
  (s.tags.entries.map fun e => (⟨e.1, e.2⟩ : Tag)).filter (·.isValid)

theorem isValid_of_mem_validTags (s : Settings) : ∀ t ∈ s.validTags, t.isValid = true := by
  intro t ht
  exact (List.mem_filter.1 ht).2

def tagRemarks (s : Settings) : List Log.Event :=
  ((s.tags.entries.map fun e => (⟨e.1, e.2⟩ : Tag)).filter (!·.isValid)).map fun t =>
    .say .warn ("Ignoring configured tag: " ++ (TagError.emptyKey t.value).message)

end Settings

namespace Program

def locking {α : Type} (a : AgentId) (body : Act α) : Act α := do
  if (← agent a).locked then throw (.deadlocked a)
  updateAgent a fun x => { x with locked := true }
  protect body (updateAgent a fun x => { x with locked := false })

def setPhase (a : AgentId) (phase : Phase) : Act Unit :=
  updateAgent a fun x => { x with phase := phase }

def claim (a : AgentId) : Act Bool := do
  let p ← get
  match p.slot with
  | none =>
    set { p with slot := some a }
    pure true
  | some holder => pure (holder = a)

def release (a : AgentId) : Act Unit :=
  modify fun p => if p.slot = some a then { p with slot := none } else p

def configuredTags (s : Settings) : Act (List Tag) := noting ⟨s.validTags, s.tagRemarks⟩

def previousTags : Option Settings → Act (List Tag)
  | none => pure []
  | some previous => configuredTags previous

variable (tell : AgentId → Act Unit)

def retire (a : AgentId) : Act Unit := do
  let x ← agent a
  match x.settings with
  | none => pure ()
  | some settings =>
    let old ← configuredTags settings
    match ← replaceGlobalsWith tell x.store old [] with
    | .ok _ => pure ()
    | .error e => say .warn ("Failed to remove configured tags: " ++ e.message)
  setPhase a .stopped
  release a

def carryOn (a : AgentId) : Act (Option ForkAction) := do
  let x ← agent a
  if x.phase ≠ .running then
    note ⟨.debug, some "Forked child has no running agent to handle",
      [⟨"state", .shown x.phase.text⟩]⟩
    pure none
  else
    match x.settings with
    | none => pure none
    | some settings =>
      let action := ForkAction.decide settings.detectSubprocesses
      match action with
      | .restart =>
        if ← callStart tell a settings then
          say .info "Restarted profiling in forked child"
        else
          say .error "Failed to restart profiling in forked child"
          retire tell a
      | .inert =>
        say .debug "Forked child is not profiled (detect_subprocesses is off)"
        retire tell a
      pure (some action)

def decideFork (a : AgentId) : Act (Option ForkAction) := do
  callReset tell a
  carryOn tell a

def applyFork (a : AgentId) : Act (Option ForkAction) := do
  if ← noticed a then locking a (decideFork tell a) else pure none

/-- Applies the decision about a fork. Agents that share stores may have to tell each other; the
number bounds how deep that goes. -/
def settle : Nat → AgentId → Act (Option ForkAction)
  | 0, _ => throw .endless
  | n + 1, a => applyFork (fun b => discard (settle n b)) a

/-- How deep agents tell each other about a fork: an agent tells whoever watches its store. -/
def tellingDepth : Nat := 3

def handleFork (a : AgentId) : Act (Option ForkAction) := settle tellingDepth a

def tellAgent (a : AgentId) : Act Unit := discard (handleFork a)

def launch (a : AgentId) (settings : Settings) : Act (Except AgentError Unit) := do
  say .debug ("Starting agent with config " ++ settings.json)
  let s := (← agent a).store
  let initial ← configuredTags settings
  match ← replaceGlobalsWith tellAgent s [] initial with
  | .error e => pure (.error (.tag e))
  | .ok _ =>
    if ← callStart tellAgent a settings then
      note ⟨.info, some "Agent started",
        [⟨"application_name", .shown settings.applicationName⟩,
         ⟨"server_address", .shown settings.serverAddress⟩,
         .number "sample_rate" settings.sampleRate.toNat]⟩
      updateAgent a fun x => { x with settings := some settings, phase := .running }
      pure (.ok ())
    else
      match ← replaceGlobalsWith tellAgent s initial [] with
      | .error e => pure (.error (.tag e))
      | .ok _ =>
        release a
        say .error "Sampler failed to start"
        pure (.error (.startup "sampler failed to start"))

def startFrom (a : AgentId) (phase : Phase) (settings : Settings) : Act (Except AgentError Unit) := do
  if !(← claim a) then pure (.error .alreadyRunning)
  else
    if phase = .fresh then setPhase a .configured
    launch a settings

def relaunch (a : AgentId) (s : StoreId) (old : List Tag) (settings : Settings) :
    Act (Except AgentError Unit) := do
  let new ← configuredTags settings
  match ← replaceGlobalsWith tellAgent s old new with
  | .error e => pure (.error (.tag e))
  | .ok _ =>
    if ← callStart tellAgent a settings then
      updateAgent a fun x => { x with settings := some settings }
      say .info "Agent reconfigured"
      pure (.ok ())
    else
      match ← replaceGlobalsWith tellAgent s new [] with
      | .error e => pure (.error (.tag e))
      | .ok _ =>
        setPhase a .stopped
        release a
        say .error "Sampler failed to restart with the new configuration"
        pure (.error (.startup "sampler failed to restart with the new configuration"))

def swap (a : AgentId) (settings : Settings) : Act (Except AgentError Unit) := do
  let x ← agent a
  if !(← callStop tellAgent a) then say .warn "Sampler failed to flush before reconfiguration"
  let old ← previousTags x.settings
  relaunch a x.store old settings

def startLocked (a : AgentId) (settings : Settings) : Act (Except AgentError Unit) := do
  let x ← agent a
  if x.phase = .running then
    if x.settings = some settings then
      say .debug "Agent already running with an identical configuration"
      pure (.ok ())
    else swap a settings
  else startFrom a x.phase settings

def startAgent (a : AgentId) (settings : Settings) : Act (Except AgentError Unit) := do
  tellAgent a
  locking a (startLocked a settings)

def reconfigure (a : AgentId) (settings : Settings) : Act (Except AgentError Unit) := do
  say .info "Reconfiguring agent"
  startAgent a settings

def stopLocked (a : AgentId) : Act (Except AgentError Unit) := do
  match (← agent a).phase with
  | .running =>
    let flushed ← callStop tellAgent a
    retire tellAgent a
    if flushed then
      say .info "Agent stopped"
      pure (.ok ())
    else pure (.error (.shutdown "sampler failed to flush and stop"))
  | .stopped =>
    say .debug "Agent already stopped"
    pure (.ok ())
  | phase => pure (.error (.notRunning phase))

/-- Stops an agent. It ends up stopped even if its sampler fails to stop. -/
def stopAgent (a : AgentId) : Act (Except AgentError Unit) := do
  tellAgent a
  locking a (stopLocked a)

/-- Adds an agent on a store. The store tells this agent about forks from now on. -/
def newAgentOn (s : StoreId) (sampler : Sampler) : Act AgentId := do
  discard install
  let p ← get
  let a := p.agents.size
  set { p with
    agents := p.agents.push ⟨s, true, p.generation, .fresh, none, false, sampler, 0, 0, 0⟩ }
  watchStore s (.agent a)
  pure a

def newAgent (sampler : Sampler) : Act AgentId := do
  let s ← newStore
  newAgentOn s sampler

def dropAgent (a : AgentId) : Act Unit :=
  protect
    (do
      if (← agent a).phase = .running then
        match ← stopAgent a with
        | .ok _ => pure ()
        | .error e => say .warn ("Failed to stop agent on drop: " ++ e.message)
      release a)
    (updateAgent a fun x => { x with alive := false })

def state (a : AgentId) : Act Phase := do
  tellAgent a
  return (← agent a).phase

def storeOf (a : AgentId) : Act StoreId := do
  tellAgent a
  return (← agent a).store

def settingsOf (a : AgentId) : Act (Option Settings) := do return (← agent a).settings

end Program

def Agent.describe (x : Agent) : String :=
  let settings := match x.settings with
    | none => "None"
    | some s => "Some(" ++ s.describe ++ ")"
  "Agent \x7b id: #, state: " ++ x.phase.label ++ ", config: " ++ settings ++ ", .. \x7d"

end ProfilingAgent
