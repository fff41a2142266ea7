import ProfilingAgent.Program.Tagging

set_option autoImplicit false

namespace ProfilingAgent.Program

variable (tell : AgentId → Act Unit)

def useOnce (a : AgentId) (s : StoreId) : Use → Act Unit
  | .addTags c tags => discard (addTagsWith tell s c tags)
  | .removeTags c tags => discard (removeTagsWith tell s c tags)
  | .addGlobal t => discard (addGlobalWith tell s t)
  | .removeGlobal t => discard (removeGlobalWith tell s t)
  | .replaceGlobals old new => discard (replaceGlobalsWith tell s old new)
  | .snapshot c => discard (snapshotWith tell s c)
  | .clearContext c => discard (clearContextWith tell s c)
  | .state => tell a

def useAll (a : AgentId) (s : StoreId) : List Use → Act Unit
  | [] => pure ()
  | u :: rest => do
    useOnce tell a s u
    useAll a s rest

def carryOut (a : AgentId) (r : Reply) : Act Bool := do
  useAll tell a (← agent a).store r.uses
  match r.ending with
  | .succeeds => pure true
  | .fails => pure false
  | .panics message => throw (.panicked message)

def idleStarted (settings : Settings) : Log.Event :=
  ⟨.debug, some "No native sampler registered, profiling is disabled",
    [⟨"application_name", .shown settings.applicationName⟩]⟩

def callStart (a : AgentId) (settings : Settings) : Act Bool := do
  let x ← agent a
  match x.sampler with
  | .idle =>
    note (idleStarted settings)
    pure true
  | .scripted script =>
    updateAgent a fun x => { x with starts := x.starts + 1 }
    record (.start a settings (← globals x.store))
    carryOut tell a (script.onStart x.starts)

def callStop (a : AgentId) : Act Bool := do
  let x ← agent a
  match x.sampler with
  | .idle => pure true
  | .scripted script =>
    updateAgent a fun x => { x with stops := x.stops + 1 }
    let tags ← globals x.store
    record (.stop a (if x.starts = 0 then none else some tags))
    carryOut tell a (script.onStop x.stops)

def callReset (a : AgentId) : Act Unit := do
  let x ← agent a
  match x.sampler with
  | .idle => pure ()
  | .scripted script =>
    updateAgent a fun x => { x with resets := x.resets + 1 }
    record (.reset a)
    discard (carryOut tell a (script.onReset x.resets))

end ProfilingAgent.Program
