import ProfilingAgent.Program.Basic

set_option autoImplicit false

/-!
# Noticing forks

A process counts the forks behind it. Whoever has to act in a forked child remembers the count that
it saw last: a boundary reports a higher count once, and a hook tells its watcher once. A watcher
that is gone by then is never told.

Telling an agent is left open here: it is the argument `tell`.
-/
namespace ProfilingAgent

inductive ForkAction
  | restart
  | inert
deriving DecidableEq, Repr

def ForkAction.text : ForkAction → String
  | restart => "restart"
  | inert => "inert"

def ForkAction.decide (detectSubprocesses : Bool) : ForkAction :=
  if detectSubprocesses then .restart else .inert

namespace Program

def recordFork : Act Unit := modify fun p => { p with generation := p.generation + 1 }

def child (p : Program) : Program := { p with pid := p.pid + 1, generation := p.generation + 1 }

def install : Act Bool := do
  if !(← get).handlerInstalled then
    modify fun p => { p with handlerInstalled := true }
    say .debug "Registered fork handler"
  pure true

def inform (tell : AgentId → Act Unit) : Watcher → Act Unit
  | .agent a => do if (← get).agents a |>.alive then tell a
  | .counter c => modify fun p =>
    let x := p.counters c
    if x.alive then { p with counters := p.counters.put c { x with count := x.count + 1 } }
    else p

def checkStore (tell : AgentId → Act Unit) (s : StoreId) : Act Unit := do
  let p ← get
  let x := p.stores s
  if x.hook.seen ≠ p.generation then
    setStore s { x with hook := { x.hook with seen := p.generation } }
    match x.hook.watcher with
    | none => pure ()
    | some w => inform tell w

def checkHook (tell : AgentId → Act Unit) (h : HookId) : Act Unit := do
  let p ← get
  let x := p.hooks h
  if x.seen ≠ p.generation then
    set { p with hooks := p.hooks.put h { x with seen := p.generation } }
    match x.watcher with
    | none => pure ()
    | some w => inform tell w

def forkNoticed (p : Program) : Log.Event :=
  ⟨.debug, some "Detected fork",
    [⟨"pid", .number p.pid.toNat⟩, ⟨"generation", .number p.generation⟩]⟩

def noticed (a : AgentId) : Act Bool := do
  let p ← get
  if (p.agents a).seen = p.generation then pure false
  else
    updateAgent a fun x => { x with seen := p.generation }
    note (forkNoticed p)
    pure true

def crossed (b : BoundaryId) : Act Bool := do
  let p ← get
  if p.boundaries b = p.generation then pure false
  else
    set { p with boundaries := p.boundaries.put b p.generation }
    note (forkNoticed p)
    pure true

def newCounter : Act CounterId := do
  let p ← get
  set { p with counters := p.counters.push ⟨true, 0⟩ }
  pure p.counters.size

def dropCounter (c : CounterId) : Act Unit :=
  modify fun p => { p with counters := p.counters.update c fun x => { x with alive := false } }

def counted (c : CounterId) : Act (Option Nat) := do
  let x := (← get).counters c
  pure (if x.alive then some x.count else none)

def newHook : Act HookId := do
  let p ← get
  set { p with hooks := p.hooks.push ⟨p.generation, none⟩ }
  pure p.hooks.size

def newBoundary : Act BoundaryId := do
  let p ← get
  set { p with boundaries := p.boundaries.push p.generation }
  pure p.boundaries.size

def watchHook (h : HookId) (w : Watcher) : Act Unit :=
  modify fun p => { p with hooks := p.hooks.update h fun x => { x with watcher := some w } }

def watchStore (s : StoreId) (w : Watcher) : Act Unit :=
  modify fun p =>
    { p with stores := p.stores.update s fun x => { x with hook := { x.hook with watcher := some w } } }

end Program
end ProfilingAgent
