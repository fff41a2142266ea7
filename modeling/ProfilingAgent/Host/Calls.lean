import ProfilingAgent.Host.Options
import ProfilingAgent.Program.HostAgent

set_option autoImplicit false

namespace ProfilingAgent.Host

open Program

def version : String := "0.1.0"

def guarded {α : Type} (fallback : α) (body : Act α) : Act α :=
  tryCatchThe Halt body fun f =>
    match f with
    | .panicked _ => pure fallback
    | f => throwThe Halt f

def required (name : String) (t : HostText) : Act (Option String) :=
  match given t with
  | .text s => pure (some s)
  | .nothing => do
    say .error (name ++ " must not be NULL")
    pure none
  | .invalid => do
    say .error (name ++ " is not valid UTF-8")
    pure none

/-- The tag of a call. Both texts are looked at, even if the first cannot be used. -/
def requiredTag (key value : HostText) : Act (Option Tag) := do
  let k ← required "key" key
  let v ← required "value" value
  match k, v with
  | some k, some v => pure (some ⟨k, v⟩)
  | _, _ => pure none

def threadOf (thread : UInt64) : Act ContextId := do
  if thread = 0 then threadContext
  else return .ofHostThread thread (← get).pid

/-- Builds settings from a caller's layer. An environment that cannot be read at all is a panic. -/
def settingsFor (vs : Environment.Variables) (caller : Layer) : Act Settings :=
  match callerSettings vs caller with
  | .ok s => noting s
  | .error b => throw (.panicked b.message)

/-- Starts the agent, or starts it again with other settings. Without options the environment and
the defaults decide. -/
def start (options : Option Options) (vs : Environment.Variables) : Act Bool :=
  guarded false do
    let caller ← match options with
      | none => pure .empty
      | some o => noting o.layer
    let settings ← settingsFor vs caller
    match ← startAgent (← hosted) settings with
    | .ok _ => pure true
    | .error e =>
      say .error ("Failed to start agent: " ++ e.message)
      pure false

def stop : Act Bool :=
  guarded false do
    match ← stopAgent (← hosted) with
    | .ok _ => pure true
    | .error e =>
      say .error ("Failed to stop agent: " ++ e.message)
      pure false

def callStore : Act StoreId := do
  let a ← hosted
  discard (handleFork a)
  storeOf a

def addThreadTag (thread : UInt64) (key value : HostText) : Act Bool :=
  guarded false do
    match ← requiredTag key value with
    | none => pure false
    | some t =>
      let s ← callStore
      match ← addTag s (← threadOf thread) t with
      | .ok _ => pure true
      | .error e =>
        say .warn ("Failed to add thread tag: " ++ e.message)
        pure false

def removeThreadTag (thread : UInt64) (key value : HostText) : Act Bool :=
  guarded false do
    match ← requiredTag key value with
    | none => pure false
    | some t =>
      let s ← callStore
      removeTag s (← threadOf thread) t

def addGlobalTag (key value : HostText) : Act Bool :=
  guarded false do
    match ← requiredTag key value with
    | none => pure false
    | some t =>
      let s ← callStore
      match ← addGlobal s t with
      | .ok _ => pure true
      | .error e =>
        say .warn ("Failed to add global tag: " ++ e.message)
        pure false

def removeGlobalTag (key value : HostText) : Act Bool :=
  guarded false do
    match ← requiredTag key value with
    | none => pure false
    | some t =>
      let s ← callStore
      removeGlobal s t

def currentContextId : Act ContextId := guarded ⟨0⟩ threadContext

end ProfilingAgent.Host
